import Shipboard.FileTree.Fault

/-!
# Why a picture cannot be saved

Pictures are saved by a part of the program that knows the formats of picture files. Why it cannot
save a picture is passed on in its own words.
-/

namespace Shipboard

/-- Why a picture cannot be saved. -/
structure SavingFault where
  /-- The wording of the fault. -/
  message : String
  /-- The fault with all its parts. -/
  inFull : String
  deriving DecidableEq, Repr

/-- The file that the picture is to be saved in cannot be made. -/
def SavingFault.ofFile (why : FileTree.Fault) : SavingFault :=
  ⟨why.message, Text.wrapped "IoError" [why.inFull]⟩

end Shipboard

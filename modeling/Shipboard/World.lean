import Shipboard.Image.Picture
import Shipboard.Journal.Basic

/-!
# The world of a task

What a task asks of the world outside. It is not said how files are read and how pictures are saved:
a task is written for any world, and what it does can be told from what the world does.

* `World` are the four things that a task asks for;
* `FileSystem` is a way to read files and to save pictures, as a function of what the files are;
* `FileSystem.world` is the world of a file system, where printed lines and notes are collected in a
  `Scene`.
-/

namespace Shipboard

/-- What a task can ask for, in a computation of the given kind. -/
structure World (m : Type → Type) where
  /-- Read the text of the file at a path. -/
  read : String → m (Except FileTree.Fault String)
  /-- Print a line. -/
  print : String → m Unit
  /-- Note down a journal, in the detail in which journals are kept. -/
  note : (Level → Journal) → m Unit
  /-- Save a picture in the file at a path. -/
  save : String → Picture → m (Except SavingFault Unit)

/-- What reading gives and what saving leaves, for every state of the files. -/
structure FileSystem (Files : Type) where
  read : Files → String → Except FileTree.Fault String
  save : Files → String → Picture → Files × Except SavingFault Unit

/-- The state of the files, and all that has been printed and noted down. -/
structure Scene (Files : Type) where
  files : Files
  printed : List String := []
  notes : Journal := []

/-- The world of a file system. Notes are made only if a detail is asked for. -/
def FileSystem.world {Files : Type} (system : FileSystem Files) (detail : Option Level) :
    World (StateM (Scene Files)) where
  read path scene := (system.read scene.files path, scene)
  print line scene := ((), { scene with printed := scene.printed ++ [line] })
  note journal scene :=
    ((), { scene with notes := scene.notes ++ (detail.map journal).getD [] })
  save path picture scene :=
    let (files, saved) := system.save scene.files path picture
    (saved, { scene with files })

end Shipboard

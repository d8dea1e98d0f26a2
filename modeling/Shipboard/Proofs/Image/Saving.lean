import Mathlib.Tactic
import Shipboard.Image.Png
import Shipboard.Proofs.FileTree.Writing

/-!
# Saving a picture in a file tree

The program saves its pictures with `Png.save`, which is given a way to write files.  Here files are
written in a file tree.

* `FileTree.system_save`: what is left in the tree, and whether the picture has been saved;
* `FileTree.read_of_system_save`: a picture that has been saved is read where it was saved;
* `FileTree.find?_system_save_of_ne`: nothing changes elsewhere, also if the picture is not saved.
-/

namespace Shipboard.FileTree

variable {t t' : FileTree} {path : String} {names : List String} {picture : Picture}

/-- **What saving a picture leaves.**  Nothing has changed if the file cannot be made, and it is
empty if its name asks for no format or for another one. -/
theorem system_save (t : FileTree) (path : String) (picture : Picture) :
    system.save t path picture =
      match t.slot path with
      | .error why => (t, .error (.ofFile why))
      | .ok names =>
        match Png.checkName path with
        | .error why => (t.put names (.file .empty), .error why)
        | .ok () => (t.put names (.file (Png.encode picture)), .ok ()) := by
  cases hslot : t.slot path with
  | error why =>
    have hwrite : t.write path .empty = (t, .error why) := by rw [write, hslot]
    simp only [system, Png.save, bind, StateT.bind, hwrite]
    rfl
  | ok names =>
    have hwrite := write_of_slot hslot .empty
    have hagain : (t.put names (.file .empty)).write path (Png.encode picture) =
        (t.put names (.file (Png.encode picture)), .ok ()) := by
      rw [write_of_slot (slot_put hslot), put_put]
    cases hname : Png.checkName path with
    | error why =>
      simp only [system, Png.save, bind, StateT.bind, hwrite, hname]
      rfl
    | ok u =>
      simp only [system, Png.save, bind, StateT.bind, hwrite, hname, hagain]
      rfl

theorem read_of_system_save (hsave : system.save t path picture = (t', .ok ())) :
    t'.read path = .ok (Png.encode picture) := by
  rw [system_save] at hsave
  cases hslot : t.slot path with
  | error why => simp [hslot] at hsave
  | ok names =>
    cases hname : Png.checkName path with
    | error why => simp [hslot, hname] at hsave
    | ok u =>
      simp only [hslot, hname, Prod.mk.injEq, and_true] at hsave
      exact read_write (hsave ▸ write_of_slot hslot _)

/-- Nothing changes elsewhere, whether the picture is saved or not. -/
theorem find?_system_save_of_ne (hne : t.slot path ≠ .ok names) :
    (system.save t path picture).1.find? names = t.find? names := by
  rw [system_save]
  cases hslot : t.slot path with
  | error why => rfl
  | ok names' =>
    have hnames : names ≠ names' := fun heq => hne (heq ▸ hslot)
    cases Png.checkName path <;> exact find?_put_of_ne hnames

end Shipboard.FileTree

import Mathlib.Tactic
import Shipboard.FileTree.Basic
import Shipboard.Proofs.Outcome

/-!
# What is read and written in a file tree

* `FileTree.readText_of_read`: a file holds a text if its bytes are those of the text;
* `FileTree.find?_put_self` and `FileTree.find?_put_of_ne`: a new entry is found, and leaves the
  others as they are;
* `FileTree.exists_of_slot`: what a path must be like so that a file can be written there;
* `FileTree.read_write`: what is written at a path is read there, whether the path starts at the
  root or in the working directory and whatever ways round it takes;
* `FileTree.find?_write_of_ne`: nothing changes elsewhere.
-/

namespace Shipboard.FileTree

variable {t t' : FileTree} {names names' place : List String} {entry : FileEntry}
  {path text : String} {data : ByteArray} {p : Path}

/-! ### Reading -/

theorem fromUTF8?_toUTF8 (text : String) : String.fromUTF8? text.toUTF8 = some text := by
  have hvalid : text.toUTF8.IsValidUTF8 := text.isValidUTF8
  rw [String.fromUTF8?, dif_pos hvalid]
  rfl

theorem read_of_resolve (hpath : Path.parse path = .ok p) (hresolve : t.resolve p = .ok names)
    (hfind : t.find? names = some (.file data)) : t.read path = .ok data := by
  simp only [read, hpath, hresolve, bind, Except.bind, hfind]
  rfl

theorem readText_of_read (hread : t.read path = .ok text.toUTF8) : t.readText path = .ok text := by
  simp only [readText, hread, bind, Except.bind, fromUTF8?_toUTF8]
  rfl

/-! ### Entries -/

theorem lookup_filter_of_ne (entries : List (List String × FileEntry)) (hne : names' ≠ names) :
    (entries.filter fun e => e.1 ≠ names).lookup names' = entries.lookup names' := by
  induction entries with
  | nil => rfl
  | cons e entries ih =>
    by_cases he : e.1 = names
    · have hother : (names' == e.1) = false := by
        rw [he]
        exact beq_false_of_ne hne
      rw [List.filter_cons_of_neg (by simpa using he), ih, List.lookup_cons, hother]
    · rw [List.filter_cons_of_pos (by simpa using he), List.lookup_cons, List.lookup_cons, ih]

/-- An entry elsewhere is as it was. -/
theorem find?_put_of_ne (hne : names' ≠ names) :
    (t.put names entry).find? names' = t.find? names' := by
  have hnone : [(names, entry)].lookup names' = none :=
    List.lookup_eq_none_iff.2 (by simpa using hne)
  rw [find?, find?, put, List.lookup_append, lookup_filter_of_ne _ hne, hnone, Option.or_none]

/-- An entry is found where it was put, unless there is a directory that is always there. -/
theorem find?_put_self (hnames : t.find? names ≠ some .directory) :
    (t.put names entry).find? names = some entry := by
  have hprefix : ¬ names.isPrefixOf t.home := fun h => hnames (by rw [find?, if_pos h])
  have hnone : (t.entries.filter fun e => e.1 ≠ names).lookup names = none :=
    List.lookup_eq_none_iff.2 (by simpa using fun _ _ _ hne => Ne.symm hne)
  rw [find?, put, if_neg hprefix, List.lookup_append, hnone, Option.none_or, List.lookup_cons_self]

/-! ### Following paths -/

theorem checkDirectory_eq_ok_iff : t.checkDirectory place = .ok () ↔
    t.find? place = some .directory := by
  rw [checkDirectory]
  split <;> simp_all

theorem follow_append (place first second : List String) :
    t.follow place (first ++ second) = t.follow place first >>= (t.follow · second) := by
  induction first generalizing place with
  | nil => rfl
  | cons name first ih =>
    simp only [List.cons_append, follow, ih, bind_assoc]

/-- A new file does not get in the way, as long as it takes the place of no directory. -/
theorem follow_put (hnames : t.find? names ≠ some .directory) {way : List String}
    (hfollow : t.follow place way = .ok names') :
    (t.put names (.file data)).follow place way = .ok names' := by
  induction way generalizing place with
  | nil => exact hfollow
  | cons name way ih =>
    obtain ⟨_, hdirectory, hrest⟩ := bind_eq_ok.1 hfollow
    obtain ⟨next, henter, hrest⟩ := bind_eq_ok.1 hrest
    have hplace := checkDirectory_eq_ok_iff.1 hdirectory
    have hne : place ≠ names := fun heq => hnames (heq ▸ hplace)
    have hdirectory' : (t.put names (.file data)).checkDirectory place = .ok () := by
      rw [checkDirectory_eq_ok_iff, find?_put_of_ne hne, hplace]
    have henter' : (t.put names (.file data)).enter place name = .ok next := by
      have hsome : (t.find? (place ++ [name])).isSome →
          ((t.put names (.file data)).find? (place ++ [name])).isSome := by
        by_cases heq : place ++ [name] = names
        · rw [heq, find?_put_self hnames]
          exact fun _ => rfl
        · rw [find?_put_of_ne heq]
          exact id
      rw [enter] at henter ⊢
      split_ifs at henter ⊢ <;> simp_all
    rw [follow, hdirectory', henter']
    exact ih hrest

/-! ### Writing -/

theorem checkWritable_eq_ok (h : t.checkWritable names = .ok ()) :
    t.find? names ≠ some .directory := by
  intro hdirectory
  rw [checkWritable, hdirectory] at h
  cases h

/-- The name of a file to be written is the last on its path, and has no other meaning. -/
theorem Path.fileName_eq_ok {name : String} (h : p.fileName = .ok name) :
    p.names.getLast? = some name ∧ p.toDirectory = false ∧ name ≠ "." ∧ name ≠ ".." ∧
      ¬ nameLimit < name.utf8ByteSize := by
  rw [fileName] at h
  split at h
  · cases h
  · split_ifs at h with hplain hsize
    cases h
    simp only [Bool.or_eq_true, decide_eq_true_eq, not_or, Bool.not_eq_true] at hplain
    exact ⟨‹_›, hplain.1.1, hplain.1.2, hplain.2, hsize⟩

/-- A path leads through a directory to a name that is free, or is that of a file. -/
theorem exists_of_slot (hslot : t.slot path = .ok names) :
    ∃ p place name, Path.parse path = .ok p ∧ t.follow (t.start p) p.names.dropLast = .ok place ∧
      t.checkDirectory place = .ok () ∧ p.fileName = .ok name ∧ names = place ++ [name] ∧
      t.find? names ≠ some .directory := by
  obtain ⟨p, hpath, hslot⟩ := bind_eq_ok.1 hslot
  obtain ⟨place, hfollow, hslot⟩ := bind_eq_ok.1 hslot
  obtain ⟨_, hdirectory, hslot⟩ := bind_eq_ok.1 hslot
  obtain ⟨name, hname, hslot⟩ := bind_eq_ok.1 hslot
  obtain ⟨_, hwritable, hslot⟩ := bind_eq_ok.1 hslot
  cases hslot
  exact ⟨p, place, name, hpath, hfollow, hdirectory, hname, rfl, checkWritable_eq_ok hwritable⟩

theorem write_of_slot (hslot : t.slot path = .ok names) (data : ByteArray) :
    t.write path data = (t.put names (.file data), .ok ()) := by
  rw [write, hslot]

theorem exists_of_write (hwrite : t.write path data = (t', .ok ())) :
    ∃ names, t.slot path = .ok names ∧ t' = t.put names (.file data) := by
  rw [write] at hwrite
  cases hslot : t.slot path <;> simp_all

/-- Nothing changes elsewhere. -/
theorem find?_write_of_ne (hne : t.slot path ≠ .ok names) :
    (t.write path data).1.find? names = t.find? names := by
  rw [write]
  cases hslot : t.slot path with
  | error why => rfl
  | ok names' => exact find?_put_of_ne fun heq => hne (heq ▸ hslot)

theorem put_put (t : FileTree) (names : List String) (first second : FileEntry) :
    (t.put names first).put names second = t.put names second := by
  have hfilter : ((t.entries.filter fun e => e.1 ≠ names) ++ [(names, first)]).filter
      (fun e => e.1 ≠ names) = t.entries.filter fun e => e.1 ≠ names := by
    simp [List.filter_append]
  rw [put, put, hfilter]
  rfl

/-- A file that has been written can be written again. -/
theorem slot_put (hslot : t.slot path = .ok names) :
    (t.put names (.file data)).slot path = .ok names := by
  obtain ⟨p, place, name, hpath, hfollow, hdirectory, hname, rfl, hnames⟩ := exists_of_slot hslot
  have hne : place ≠ place ++ [name] := by simp
  have hdirectory' : (t.put (place ++ [name]) (.file data)).checkDirectory place = .ok () := by
    rw [checkDirectory_eq_ok_iff, find?_put_of_ne hne, checkDirectory_eq_ok_iff.1 hdirectory]
  have hwritable : (t.put (place ++ [name]) (.file data)).checkWritable (place ++ [name]) =
      .ok () := by
    rw [checkWritable, find?_put_self hnames]
  have hfollow' : (t.put (place ++ [name]) (.file data)).follow (t.start p) p.names.dropLast =
      .ok place := follow_put hnames hfollow
  simp only [slot, hpath, bind, Except.bind]
  show (follow _ (t.start p) _ >>= _) = _
  simp only [hfollow', hdirectory', hname, hwritable, bind, Except.bind]
  rfl

/-- **What is written at a path is read there.**  The path may start at the root or in the working
directory, and may go round by any directories. -/
theorem read_write (hwrite : t.write path data = (t', .ok ())) : t'.read path = .ok data := by
  obtain ⟨names, hslot, rfl⟩ := exists_of_write hwrite
  obtain ⟨p, place, name, hpath, hfollow, hdirectory, hname, rfl, hnames⟩ := exists_of_slot hslot
  obtain ⟨hlast, htail, hdot, hdots, hsize⟩ := Path.fileName_eq_ok hname
  have hself : (t.put (place ++ [name]) (.file data)).find? (place ++ [name]) =
      some (.file data) := find?_put_self hnames
  -- the way to the directory is as before, and the last step leads to the new file
  have henter : (t.put (place ++ [name]) (.file data)).follow place [name] =
      .ok (place ++ [name]) := by
    have hdirectory' := checkDirectory_eq_ok_iff.1 hdirectory
    have hne : place ≠ place ++ [name] := by simp
    rw [follow, checkDirectory_eq_ok_iff.2 ((find?_put_of_ne hne).trans hdirectory'), enter,
      if_neg hsize, if_neg hdot, if_neg hdots, hself]
    rfl
  have hway : p.names = p.names.dropLast ++ [name] := by
    rw [List.dropLast_append_getLast?]
    exact hlast
  have hresolve : (t.put (place ++ [name]) (.file data)).resolve p = .ok (place ++ [name]) := by
    have hstart : (t.put (place ++ [name]) (.file data)).start p = t.start p := rfl
    rw [resolve, hway, follow_append, hstart, follow_put hnames hfollow]
    show (follow _ place [name] >>= _) = _
    rw [henter, htail]
    rfl
  exact read_of_resolve hpath hresolve hself

end Shipboard.FileTree

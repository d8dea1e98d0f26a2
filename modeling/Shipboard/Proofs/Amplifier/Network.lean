import Shipboard.Proofs.Amplifier.Laps
import Shipboard.Proofs.Computer.Failing

/-!
# The network of amplifiers

The amplifiers of a feedback loop need not take turns.  In a network each of them may carry out an
instruction at any time, and what it puts out goes to the next one at once.

* `Network.fire? net i` is the network after one instruction of amplifier `i`, and
  `Network.follow net schedule` the network after as many as the schedule names;
* `Follows` is what holds of a network at any time: every amplifier is on its course, on what its
  predecessor has put out so far;
* `outputs_of_follow`: under any schedule the last amplifier puts out what it puts out in the
  feedback loop.
-/

namespace Shipboard.Amplifier

open Computer

/-- An amplifier of a network, with the fault that it has failed with, if it has failed. -/
structure Node where
  computer : Computer
  fault : Option Computer.Fault := none
  deriving DecidableEq, Repr

/-- A circle of `n` amplifiers. -/
abbrev Network (n : ℕ) := Fin n → Node

/-- The amplifier that is given what amplifier `i` puts out. -/
def next {n : ℕ} (i : Fin n) : Fin n :=
  if h : i + 1 < n then ⟨i + 1, h⟩ else ⟨0, i.pos⟩

/-- The amplifier that puts out what amplifier `i` is given. -/
def previous {n : ℕ} (i : Fin n) : Fin n :=
  ⟨if (i : ℕ) = 0 then n - 1 else i - 1, by split_ifs <;> omega⟩

theorem next_eq_iff {n : ℕ} {i j : Fin n} : j = next i ↔ previous j = i := by
  simp only [Fin.ext_iff, next, previous]
  split_ifs <;> simp only <;> omega

/-- What amplifier `i` is given at the start: its phase setting and, if it is the first one, the
signal zero. -/
def given {phases : List ℤ} (i : Fin phases.length) : List ℤ :=
  phases[i] :: if (i : ℕ) = 0 then [0] else []

namespace Network

/-- The network before the first instruction. -/
def start (program phases : List ℤ) : Network phases.length :=
  fun i => { computer := (load program).feedAll (given i) }

variable {n : ℕ}

/-- The network with values handed to an amplifier. -/
def deliver (net : Network n) (i : Fin n) (values : List ℤ) : Network n :=
  Function.update net i { net i with computer := (net i).computer.feedAll values }

/-- One instruction of amplifier `i`, unless that has failed, has halted or waits for an input.
What it puts out goes to the next amplifier. -/
def fire? (net : Network n) (i : Fin n) : Option (Network n) :=
  match (net i).fault with
  | some _ => none
  | none =>
    match (net i).computer.step with
    | .runs moved =>
      some (deliver (Function.update net i { computer := moved }) (next i)
        (moved.outputs.toList.drop (net i).computer.outputs.size))
    | .rests ⟨.failed fault, left⟩ =>
      some (Function.update net i { computer := left, fault := some fault })
    | .rests ⟨.halted, _⟩ => none
    | .rests ⟨.needsInput, _⟩ => none

/-- The network after the instructions of a schedule, each of them by the amplifier named. -/
def follow : Network n → List (Fin n) → Option (Network n)
  | net, [] => some net
  | net, i :: schedule => (net.fire? i).bind fun after => after.follow schedule

/-- What amplifier `i` has put out so far. -/
def sent (net : Network n) (i : Fin n) : List ℤ :=
  (net i).computer.outputs.toList

/-- What amplifier `i` has been given so far. -/
def heard {phases : List ℤ} (net : Network phases.length) (i : Fin phases.length) : List ℤ :=
  given i ++ net.sent (previous i)

/-! ### One instruction -/

theorem deliver_fault (net : Network n) (i j : Fin n) (values : List ℤ) :
    (net.deliver i values j).fault = (net j).fault := by
  by_cases hj : j = i
  · subst hj
    rw [deliver, Function.update_self]
  · rw [deliver, Function.update_of_ne hj]

theorem deliver_computer (net : Network n) (i j : Fin n) (values : List ℤ) :
    (net.deliver i values j).computer =
      (net j).computer.feedAll (if j = i then values else []) := by
  by_cases hj : j = i
  · subst hj
    rw [deliver, Function.update_self, if_pos rfl]
  · rw [deliver, Function.update_of_ne hj, if_neg hj, feedAll_eq_amid, amid_nil_nil]

theorem deliver_sent (net : Network n) (i j : Fin n) (values : List ℤ) :
    (net.deliver i values).sent j = net.sent j := by
  rw [sent, deliver_computer]
  rfl

/-- When amplifier `i` has put out some more values and they have been handed on, every amplifier
has heard what it had heard before, and the next one these values after it. -/
theorem heard_deliver {phases : List ℤ} {net moving : Network phases.length}
    {i : Fin phases.length} {values : List ℤ} (hsent : moving.sent i = net.sent i ++ values)
    (hother : ∀ j, j ≠ i → moving.sent j = net.sent j) (j : Fin phases.length) :
    (moving.deliver (next i) values).heard j =
      net.heard j ++ if j = next i then values else [] := by
  rw [heard, heard, deliver_sent, List.append_assoc]
  by_cases hj : previous j = i
  · rw [if_pos (next_eq_iff.2 hj), hj, hsent]
  · rw [if_neg fun hnext => hj (next_eq_iff.1 hnext), hother _ hj, List.append_nil]

/-- What one instruction can do: either it is completed, and what the amplifier has put out with it
is handed on, or it fails. -/
theorem fire?_eq_some {net after : Network n} {i : Fin n} (h : net.fire? i = some after) :
    (net i).fault = none ∧
      ((∃ moved values, (net i).computer.step = .runs moved ∧
        moved.outputs.toList = net.sent i ++ values ∧
        after = deliver (Function.update net i { computer := moved }) (next i) values) ∨
      ∃ fault left, (net i).computer.step = .rests ⟨.failed fault, left⟩ ∧
        left.outputs.toList = net.sent i ∧
        after = Function.update net i { computer := left, fault := some fault }) := by
  unfold fire? at h
  split at h
  · cases h
  · next hfault =>
    refine ⟨hfault, ?_⟩
    split at h
    · next moved hstep =>
      obtain ⟨values, hvalues⟩ := outputs_prefix_of_step hstep
      rw [← hvalues, ← Array.length_toList, List.drop_left] at h
      exact Or.inl ⟨moved, values, hstep, hvalues.symm, (Option.some.inj h).symm⟩
    · next fault left hstep =>
      have houtputs := (step_eq_failed_iff.1 hstep).abandoned.outputs
      exact Or.inr ⟨fault, left, hstep, congrArg Array.toList houtputs, (Option.some.inj h).symm⟩
    · cases h
    · cases h

end Network

/-! ### The invariant -/

/-- What holds of the network at any time, when `T i` is the stream that amplifier `i` is given in
the feedback loop, after its phase setting. -/
structure Follows (program phases : List ℤ) (T : ℕ → List ℤ) (net : Network phases.length) :
    Prop where
  course : ∀ i, (net i).fault = none → ∃ k,
    after k ((load program).feedAll (net.heard i)) = some (net i).computer
  compatible : ∀ i, Compatible (net.sent i) (T (i + 1))
  last : ∀ i : Fin phases.length, (i : ℕ) + 1 = phases.length →
    (net i).fault = none ∧ net.sent i <+: T phases.length

variable {program phases : List ℤ} {T : ℕ → List ℤ} {s : ℤ} {net : Network phases.length}

theorem follows_start (program phases : List ℤ) (T : ℕ → List ℤ) :
    Follows program phases T (Network.start program phases) where
  course i _ := ⟨0, by
    have hsent : (Network.start program phases).sent (previous i) = [] := rfl
    rw [Network.heard, hsent, List.append_nil]
    rfl⟩
  compatible i := Or.inl (List.nil_prefix)
  last i _ := ⟨rfl, List.nil_prefix⟩

/-- What an amplifier has heard so far agrees with what it is given in the feedback loop. -/
theorem Follows.heard_compatible (h : Follows program phases T net)
    (hstreams : Streams program phases T s) (i : Fin phases.length) :
    Compatible (net.heard i) (phases[i] :: T i) := by
  refine Compatible.cons ?_ phases[i]
  by_cases hi : (i : ℕ) = 0
  · -- what the first one hears is zero and then what the last one has sent
    have hlast := (h.last (previous i) (by simp only [previous, if_pos hi]; omega)).2
    refine Compatible.of_prefix (Z := 0 :: T phases.length) ?_ ?_
    · rw [if_pos hi]
      exact (List.prefix_cons_inj 0).2 hlast
    · rw [hi, ← hstreams.closes]
      exact List.prefix_append _ _
  · have hprevious : ((previous i : Fin phases.length) : ℕ) + 1 = i := by
      simp only [previous, if_neg hi]
      omega
    have hsent := h.compatible (previous i)
    rw [hprevious] at hsent
    rwa [if_neg hi]

/-- What an amplifier puts out on what it has heard agrees with what it puts out in the feedback
loop. -/
theorem Follows.agrees (h : Follows program phases T net) (hstreams : Streams program phases T s)
    {i : Fin phases.length} {k : ℕ} {m : Computer}
    (hm : after k ((load program).feedAll (net.heard i)) = some m) :
    Compatible m.outputs.toList (T (i + 1)) ∧
      ((i : ℕ) + 1 = phases.length → m.outputs.toList <+: T phases.length ∧
        (∀ fault left, m.step ≠ .rests ⟨.failed fault, left⟩) ∧
        ∀ left, m.step = .rests ⟨.halted, left⟩ → m.outputs.toList = T phases.length) := by
  obtain ⟨ending, hsettles, hhalted⟩ := hstreams.settles i _ (List.getElem?_eq_getElem i.isLt)
  have hheard := h.heard_compatible hstreams i
  refine ⟨hsettles.compatible hm hheard, fun hlast => ?_⟩
  obtain rfl := hhalted hlast
  rw [hlast] at hsettles
  exact hsettles.prefix_of_halted hm hheard

/-- An instruction that is completed keeps the invariant. -/
theorem Follows.of_runs (h : Follows program phases T net) (hstreams : Streams program phases T s)
    {i : Fin phases.length} (hfault : (net i).fault = none) {moved : Computer} {values : List ℤ}
    (hstep : (net i).computer.step = .runs moved)
    (hvalues : moved.outputs.toList = net.sent i ++ values) :
    Follows program phases T
      (Network.deliver (Function.update net i { computer := moved }) (next i) values) := by
  set moving : Network phases.length := Function.update net i { computer := moved }
  have hself : moving i = { computer := moved } := Function.update_self ..
  have hother : ∀ j, j ≠ i → moving j = net j := fun j hj => Function.update_of_ne hj ..
  have hheard : ∀ j, (moving.deliver (next i) values).heard j =
      net.heard j ++ if j = next i then values else [] := by
    refine Network.heard_deliver ?_ fun j hj => ?_
    · rw [Network.sent, hself, hvalues]
    · rw [Network.sent, hother j hj, Network.sent]
  obtain ⟨k, hk⟩ := h.course i hfault
  have hmoved := after_succ hk hstep
  obtain ⟨hcompatible, hlast⟩ := h.agrees hstreams hmoved
  refine ⟨fun j hj => ?_, fun j => ?_, fun j hj => ?_⟩
  · rw [hheard, feedAll_append, Network.deliver_computer]
    by_cases hji : j = i
    · subst hji
      rw [hself]
      exact ⟨k + 1, after_feedAll hmoved _⟩
    · rw [Network.deliver_fault, hother j hji] at hj
      obtain ⟨k, hk⟩ := h.course j hj
      rw [hother j hji]
      exact ⟨k, after_feedAll hk _⟩
  · rw [Network.deliver_sent, Network.sent]
    by_cases hji : j = i
    · subst hji
      rwa [hself]
    · rw [hother j hji]
      exact h.compatible j
  · rw [Network.deliver_fault, Network.deliver_sent, Network.sent]
    by_cases hji : j = i
    · subst hji
      rw [hself]
      exact ⟨rfl, (hlast hj).1⟩
    · rw [hother j hji]
      exact h.last j hj

/-- An instruction that fails keeps the invariant: it is not the last amplifier's. -/
theorem Follows.of_fails (h : Follows program phases T net) (hstreams : Streams program phases T s)
    {i : Fin phases.length} (hfault : (net i).fault = none) {fault : Computer.Fault}
    {left : Computer} (hstep : (net i).computer.step = .rests ⟨.failed fault, left⟩)
    (hsent : left.outputs.toList = net.sent i) :
    Follows program phases T
      (Function.update net i { computer := left, fault := some fault }) := by
  set failed : Network phases.length :=
    Function.update net i { computer := left, fault := some fault }
  have hself : failed i = { computer := left, fault := some fault } := Function.update_self ..
  have hother : ∀ j, j ≠ i → failed j = net j := fun j hj => Function.update_of_ne hj ..
  have hsame : ∀ j, failed.sent j = net.sent j := by
    intro j
    by_cases hj : j = i
    · subst hj
      rw [Network.sent, hself, hsent]
    · rw [Network.sent, hother j hj, Network.sent]
  -- on what it has heard, the last amplifier does not fail
  have hnot : (i : ℕ) + 1 ≠ phases.length := by
    intro hlast
    obtain ⟨k, hk⟩ := h.course i hfault
    exact ((h.agrees hstreams hk).2 hlast).2.1 fault left hstep
  refine ⟨fun j hj => ?_, fun j => ?_, fun j hj => ?_⟩
  · have hji : j ≠ i := by
      rintro rfl
      rw [hself] at hj
      cases hj
    rw [hother j hji] at hj ⊢
    rw [Network.heard, hsame]
    exact h.course j hj
  · rw [hsame]
    exact h.compatible j
  · have hji : j ≠ i := by
      rintro rfl
      exact hnot hj
    rw [hsame, hother j hji]
    exact h.last j hj

/-- Every step of the network keeps the invariant. -/
theorem Follows.fire (h : Follows program phases T net) (hstreams : Streams program phases T s)
    {i : Fin phases.length} {after : Network phases.length} (hfire : net.fire? i = some after) :
    Follows program phases T after := by
  obtain ⟨hfault, hstep⟩ := Network.fire?_eq_some hfire
  rcases hstep with ⟨moved, values, hstep, hvalues, rfl⟩ | ⟨fault, left, hstep, hsent, rfl⟩
  · exact h.of_runs hstreams hfault hstep hvalues
  · exact h.of_fails hstreams hfault hstep hsent

/-- So does every schedule. -/
theorem Follows.follow (h : Follows program phases T net) (hstreams : Streams program phases T s)
    {schedule : List (Fin phases.length)} {after : Network phases.length}
    (hfollow : net.follow schedule = some after) : Follows program phases T after := by
  induction schedule generalizing net with
  | nil => cases hfollow; exact h
  | cons i schedule ih =>
    obtain ⟨moved, hfire, hrest⟩ := Option.bind_eq_some_iff.1 hfollow
    exact ih (h.fire hstreams hfire) hrest

/-! ### Any schedule -/

/-- **The feedback loop computes what the network computes under any schedule.**  That the loop ends
with a signal, and that every run in it puts out one value, is all that is asked. -/
theorem outputs_of_follow {budget : ℕ} (hfeedback : feedback budget program phases = .ok s)
    (hone : ∀ lap ∈ feedbackLaps budget program phases, ∀ c ∈ lap, c.outputs.size = 1)
    {schedule : List (Fin phases.length)}
    (hnet : (Network.start program phases).follow schedule = some net)
    (i : Fin phases.length) (hlast : (i : ℕ) + 1 = phases.length) :
    (net i).fault = none ∧
      (net i).computer.outputs.toList <+: signals (feedbackLaps budget program phases) ∧
      ((net i).computer.AtHalt → (net i).computer.outputs.back? = some s) := by
  have hne : phases ≠ [] := by
    rintro rfl
    exact i.elim0
  obtain ⟨T, hstreams, hsignals, hfinal⟩ := exists_streams_of_feedback hne hfeedback hone
  have hfollows := (follows_start program phases T).follow hstreams hnet
  obtain ⟨hfault, hsent⟩ := hfollows.last i hlast
  refine ⟨hfault, hsignals ▸ hsent, fun hhalt => ?_⟩
  obtain ⟨k, hk⟩ := hfollows.course i hfault
  have hall := ((hfollows.agrees hstreams hk).2 hlast).2.2 _ (step_eq_halted_iff.2 ⟨hhalt, rfl⟩)
  rw [← Array.getLast?_toList, hall, hfinal]

/-- A program that adds its phase setting to a signal, twice over. -/
def addTwice : List ℤ := [3, 20, 3, 21, 1, 20, 21, 21, 4, 21, 3, 21, 1, 20, 21, 21, 4, 21, 99]

/-- Two amplifiers, of which the second one takes its phase setting before the first one starts. -/
theorem outputs_of_follow_addTwice :
    ∃ net, (Network.start addTwice [5, 7]).follow [1, 0, 0, 0, 0, 1, 1, 1, 0, 0, 0, 1, 1, 1] =
        some net ∧
      (net 1).fault = none ∧ (net 1).computer.outputs.toList <+: [12, 24] ∧
      (net 1).computer.outputs.back? = some 24 := by
  have hfeedback : feedback 20 addTwice [5, 7] = .ok 24 := by decide +kernel
  have hsignals : signals (feedbackLaps 20 addTwice [5, 7]) = [12, 24] := by decide +kernel
  have hfetch : ((Network.start addTwice [5, 7]).follow
      [1, 0, 0, 0, 0, 1, 1, 1, 0, 0, 0, 1, 1, 1]).map (fun net => (net 1).computer.fetch) =
        some (.ok ⟨.halt, .position, .position, .position⟩) := by decide +kernel
  obtain ⟨net, hnet, hfetch⟩ := Option.map_eq_some_iff.1 hfetch
  obtain ⟨hfault, houtputs, hback⟩ :=
    outputs_of_follow hfeedback (by decide +kernel) hnet 1 rfl
  exact ⟨net, hnet, hfault, hsignals ▸ houtputs, hback ⟨_, hfetch, rfl⟩⟩

end Shipboard.Amplifier

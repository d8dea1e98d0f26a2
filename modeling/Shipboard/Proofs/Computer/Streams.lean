import Shipboard.Proofs.Computer.Amid

/-!
# A computer as a function of streams

What a computer puts out depends on what it is given, and on nothing else: given more, it puts out
the same and perhaps more.

* `Compatible X Y`: one of two streams continues the other;
* `compatible_outputs`: given compatible streams, a computer puts out compatible ones;
* `Settles c X Y ending`: given `X`, the computer `c` comes to rest, and has put out `Y` by then;
* `Settles.prefix_of_halted`: if it has halted, then it never puts out more on a compatible stream.
-/

namespace Shipboard.Computer

/-- One of two streams continues the other. -/
def Compatible (X Y : List ℤ) : Prop := X <+: Y ∨ Y <+: X

theorem Compatible.of_prefix {X Y Z : List ℤ} (hX : X <+: Z) (hY : Y <+: Z) : Compatible X Y :=
  List.prefix_or_prefix_of_prefix hX hY

theorem Compatible.cons {X Y : List ℤ} (h : Compatible X Y) (x : ℤ) :
    Compatible (x :: X) (x :: Y) := by
  rcases h with h | h
  · exact Or.inl ((List.prefix_cons_inj x).2 h)
  · exact Or.inr ((List.prefix_cons_inj x).2 h)

theorem Compatible.exists_common {X Y : List ℤ} (h : Compatible X Y) :
    ∃ p q, X ++ p = Y ++ q := by
  rcases h with ⟨more, h⟩ | ⟨more, h⟩
  · exact ⟨more, [], by rw [h, List.append_nil]⟩
  · exact ⟨[], more, by rw [h, List.append_nil]⟩

variable {c d m : Computer} {X Y H : List ℤ} {ending : Ending} {k n : ℕ}

/-- What has been put out at one time goes on to what has been put out later. -/
theorem outputs_prefix_of_le (hm : after k c = some m) (hd : after n c = some d) (hle : k ≤ n) :
    m.outputs.toList <+: d.outputs.toList :=
  outputs_prefix (after_sub hm hd hle)

/-- **A computer is a monotone function of streams.**  Given compatible streams it puts out
compatible ones, whenever one looks. -/
theorem compatible_outputs (hm : after k (c.feedAll H) = some m)
    (hd : after n (c.feedAll X) = some d) (h : Compatible H X) :
    Compatible m.outputs.toList d.outputs.toList := by
  obtain ⟨p, q, hpq⟩ := h.exists_common
  have hm' := after_feedAll hm p
  have hd' := after_feedAll hd q
  rw [← feedAll_append] at hm' hd'
  rw [← hpq] at hd'
  rcases le_total k n with hle | hle
  · have hprefix := outputs_prefix_of_le hm' hd' hle
    exact Or.inl hprefix
  · have hprefix := outputs_prefix_of_le hd' hm' hle
    exact Or.inr hprefix

/-- Given the inputs, the computer comes to rest, and has put out the outputs by then. -/
def Settles (c : Computer) (inputs outputs : List ℤ) (ending : Ending) : Prop :=
  ∃ n d, after n (c.feedAll inputs) = some d ∧ d.step = .rests ⟨ending, d⟩ ∧
    d.outputs.toList = outputs

theorem Settles.compatible (hsettles : c.Settles X Y ending)
    (hm : after k (c.feedAll H) = some m) (h : Compatible H X) :
    Compatible m.outputs.toList Y := by
  obtain ⟨n, d, hd, -, rfl⟩ := hsettles
  exact compatible_outputs hm hd h

/-- A computer that halts on a stream puts out no more on any compatible one, does not fail on it,
and if it halts on that one too then it has put out the same. -/
theorem Settles.prefix_of_halted (hsettles : c.Settles X Y .halted)
    (hm : after k (c.feedAll H) = some m) (h : Compatible H X) :
    m.outputs.toList <+: Y ∧ (∀ fault left, m.step ≠ .rests ⟨.failed fault, left⟩) ∧
      (∀ left, m.step = .rests ⟨.halted, left⟩ → m.outputs.toList = Y) := by
  obtain ⟨n, d, hd, hrests, rfl⟩ := hsettles
  obtain ⟨p, q, hpq⟩ := h.exists_common
  have hm' := after_feedAll hm p
  have hd' := after_feedAll hd q
  rw [← feedAll_append] at hm' hd'
  rw [← hpq] at hd'
  have hhalts := step_feedAll_of_rests hrests (by simp) q
  -- if `m` rests and does not wait, then it is where the other computer has halted
  have hsame : ∀ ending left, m.step = .rests ⟨ending, left⟩ → ending ≠ .needsInput →
      ending = .halted ∧ m.outputs.toList = d.outputs.toList := by
    intro ending left hm hending
    have hstep := step_feedAll_of_rests hm hending p
    obtain ⟨-, heq⟩ := eq_of_rests hm' hstep hd' hhalts
    rw [heq, hhalts] at hstep
    obtain ⟨hhalted, -⟩ := Rest.mk.inj (Step.rests.inj hstep)
    exact ⟨hhalted.symm, congrArg (fun c => c.outputs.toList) heq⟩
  refine ⟨?_, ?_, ?_⟩
  · have hprefix := outputs_prefix_of_le hm' hd' (le_of_rests hm' hd' hhalts)
    exact hprefix
  · intro fault left hfails
    cases (hsame _ left hfails (by simp)).1
  · intro left hhalts
    exact (hsame _ left hhalts (by simp)).2

end Shipboard.Computer

import Shipboard.Amplifier
import Shipboard.Proofs.Computer.Streams

/-!
# The laps of a feedback loop

A feedback loop runs its amplifiers one after the other, lap by lap.  Here a loop that ends is taken
apart into the streams that pass between its amplifiers.

* `lap` and `laps` are the amplifiers as their runs leave them, in one lap and lap by lap, and
  `signals` what the loop takes from the last of them;
* `Streams program phases T s`: amplifier `i`, given its phase setting and the stream `T i`, settles
  with the stream `T (i + 1)`; the last one halts; and zero before the last one's stream is the
  first one's with `s` behind it;
* `exists_streams_of_feedback`: a loop that ends with the signal `s`, and in which every run puts
  out one value, has such streams.
-/

namespace Shipboard.Amplifier

open Computer

/-- The amplifiers as their runs in one lap leave them, before their outputs are taken. -/
def lap (budget : ℕ) : List Computer → ℤ → List Computer
  | [], _ => []
  | amplifier :: others, incoming =>
    match (amplifier.feed incoming).proceed budget with
    | .error _ => []
    | .ok (left, _) =>
      left :: match left.outputs.back? with
        | none => []
        | some outgoing => lap budget others outgoing

/-- The laps of a feedback loop, as long as no run fails and none is silent. -/
def laps (budget : ℕ) : (left : ℕ) → List Computer → ℤ → List (List Computer)
  | 0, _, _ => []
  | left + 1, amplifiers, incoming =>
    lap budget amplifiers incoming ::
      match round budget amplifiers incoming true with
      | .error _ => []
      | .ok after =>
        if after.halted then [] else laps budget left after.amplifiers after.signal

/-- The laps of a feedback loop with a program and phase settings. -/
def feedbackLaps (budget : ℕ) (program phases : List ℤ) : List (List Computer) :=
  laps budget roundLimit (phases.map (inLoop program)) 0

/-- What the last amplifier puts out, lap by lap: its latest output in each. -/
def signals (laps : List (List Computer)) : List ℤ :=
  laps.filterMap fun lap => lap.getLast?.bind fun amplifier => amplifier.outputs.back?

/-! ### One run -/

/-- A run that may go on has ended, and not with a fault. -/
theorem proceed_eq_ok {budget : ℕ} {c left : Computer} {halted : Bool}
    (h : c.proceed budget = .ok (left, halted)) :
    ∃ ending, run budget c = some ⟨ending, left⟩ ∧ (∀ fault, ending ≠ .failed fault) ∧
      (halted = true → ending = .halted) := by
  unfold proceed at h
  split at h
  · cases h
  · cases h
  · next hrun => cases h; exact ⟨_, hrun, by simp, fun _ => rfl⟩
  · next hrun => cases h; exact ⟨_, hrun, by simp, by simp⟩

theorem signal_eq_ok {output : Option ℤ} {value : ℤ} (h : signal output = .ok value) :
    output = some value := by
  cases output with
  | none => cases h
  | some v => cases h; rfl

/-! ### One lap -/

variable {budget : ℕ} {incoming : ℤ} {halted : Bool} {after : Round}

/-- A lap that ends is the run of the first amplifier and a lap of the others. -/
theorem round_cons_eq_ok {amplifier : Computer} {others : List Computer}
    (h : round budget (amplifier :: others) incoming halted = .ok after) :
    ∃ left flag outgoing rest ending,
      run budget (amplifier.feed incoming) = some ⟨ending, left⟩ ∧
      (∀ fault, ending ≠ .failed fault) ∧ (flag = true → ending = .halted) ∧
      left.outputs.back? = some outgoing ∧ round budget others outgoing flag = .ok rest ∧
      after = { rest with amplifiers := left.takeOutputs :: rest.amplifiers } ∧
      lap budget (amplifier :: others) incoming = left :: lap budget others outgoing := by
  rw [round] at h
  obtain ⟨⟨left, flag⟩, hproceed, h⟩ := bind_eq_ok.1 h
  obtain ⟨outgoing, hsignal, h⟩ := bind_eq_ok.1 h
  obtain ⟨rest, hround, h⟩ := bind_eq_ok.1 h
  obtain ⟨ending, hrun, hending, hflag⟩ := proceed_eq_ok hproceed
  have hback := signal_eq_ok hsignal
  refine ⟨left, flag, outgoing, rest, ending, hrun, hending, hflag, hback, hround,
    (Except.ok.inj h).symm, ?_⟩
  rw [lap, hproceed]
  simp only [hback]

/-- The signal that a lap comes to is what its last run has put out last. -/
theorem getLast?_lap {amplifiers : List Computer} (hne : amplifiers ≠ [])
    (h : round budget amplifiers incoming halted = .ok after) :
    ((lap budget amplifiers incoming).getLast?.bind fun amplifier => amplifier.outputs.back?) =
      some after.signal := by
  induction amplifiers generalizing incoming halted after with
  | nil => exact (hne rfl).elim
  | cons amplifier others ih =>
    obtain ⟨left, flag, outgoing, rest, ending, -, -, -, hback, hround, rfl, hlap⟩ :=
      round_cons_eq_ok h
    rw [hlap, List.getLast?_cons]
    cases others with
    | nil =>
      cases hround
      exact hback
    | cons next others =>
      obtain ⟨last, hlast, hsignal⟩ := Option.bind_eq_some_iff.1 (ih (by simp) hround)
      rw [hlast]
      exact hsignal

/-- In a lap that ends and in which every run puts out one value, the value `x i` comes to
amplifier `i`, which puts out `x (i + 1)`. -/
theorem exists_values_of_round {amplifiers : List Computer}
    (h : round budget amplifiers incoming halted = .ok after)
    (hone : ∀ c ∈ lap budget amplifiers incoming, c.outputs.size = 1) :
    ∃ x : ℕ → ℤ, x 0 = incoming ∧ x amplifiers.length = after.signal ∧
      after.amplifiers.length = amplifiers.length ∧
      ∀ (i : ℕ) (a : Computer), amplifiers[i]? = some a → ∃ ending left,
        run budget (a.feed (x i)) = some ⟨ending, left⟩ ∧ (∀ fault, ending ≠ .failed fault) ∧
        left.outputs.toList = [x (i + 1)] ∧ after.amplifiers[i]? = some left.takeOutputs ∧
        (i + 1 = amplifiers.length → after.halted = true → ending = .halted) := by
  induction amplifiers generalizing incoming halted after with
  | nil =>
    cases h
    exact ⟨fun _ => incoming, rfl, rfl, rfl, by simp⟩
  | cons amplifier others ih =>
    obtain ⟨left, flag, outgoing, rest, ending, hrun, hending, hflag, hback, hround, rfl, hlap⟩ :=
      round_cons_eq_ok h
    rw [hlap] at hone
    obtain ⟨x, hx, hlast, hlength, hvalues⟩ :=
      ih hround fun c hc => hone c (List.mem_cons_of_mem left hc)
    -- the values of the others, one place further on
    refine ⟨fun i => i.casesOn incoming x, rfl, hlast, by simp [hlength], ?_⟩
    rintro (_ | i) a ha
    · cases ha
      refine ⟨ending, left, hrun, hending, ?_, rfl, ?_⟩
      · have hsize := hone left List.mem_cons_self
        rw [← Array.length_toList, List.length_eq_one_iff] at hsize
        obtain ⟨value, hvalue⟩ := hsize
        rw [← Array.getLast?_toList, hvalue, List.getLast?_singleton, ← hx] at hback
        rw [hvalue, Option.some.inj hback]
      · intro hlen hhalted
        cases others with
        | nil => cases hround; exact hflag hhalted
        | cons => simp at hlen
    · obtain ⟨ending, left, hrun, hending, houtputs, hleft, hhalted⟩ := hvalues i a ha
      exact ⟨ending, left, hrun, hending, houtputs, hleft, fun hlen =>
        hhalted (by simpa using hlen)⟩

/-! ### Streams -/

/-- The computer `a` is what is left of one with the program, once that has been given `inputs` and
`outputs` have been taken from it. -/
def Stands (program inputs outputs : List ℤ) (a : Computer) : Prop :=
  ∃ n, Computer.after n ((load program).feedAll inputs) = some (a.amid outputs [])

/-- One more value given and one more run. -/
theorem Stands.run {program inputs outputs : List ℤ} {a left : Computer} {ending : Ending}
    {value : ℤ} (h : Stands program inputs outputs a)
    (hrun : run budget (a.feed value) = some ⟨ending, left⟩)
    (hending : ∀ fault, ending ≠ .failed fault) :
    (load program).Settles (inputs ++ [value]) (outputs ++ left.outputs.toList) ending ∧
      Stands program (inputs ++ [value]) (outputs ++ left.outputs.toList) left.takeOutputs := by
  obtain ⟨n, hn⟩ := h
  obtain ⟨m, -, d, hm, hrests⟩ := run_eq_some_iff.1 hrun
  obtain rfl : left = d := eq_of_step_rests hrests hending
  -- the value was not there on the way to `a`, and would not have mattered
  have hfed := after_feedAll hn [value]
  rw [← feedAll_append, show (a.amid outputs []).feedAll [value] = (a.feed value).amid outputs []
    by simp [amid, feed, feedAll]] at hfed
  have hcourse := after_trans hfed (after_amid hm)
  refine ⟨⟨n + m, _, hcourse, step_amid_nil hrests, amid_outputs⟩, n + m, ?_⟩
  rw [takeOutputs_amid]
  exact hcourse

/-- Before a lap, amplifier `i` has been given its phase setting and the stream `S i`, and has put
out `S (i + 1)`; `incoming` is what the first one is given next. -/
structure Wired (program phases : List ℤ) (amplifiers : List Computer) (incoming : ℤ)
    (S : ℕ → List ℤ) : Prop where
  length : amplifiers.length = phases.length
  stands : ∀ i a phase, amplifiers[i]? = some a → phases[i]? = some phase →
    Stands program (phase :: S i) (S (i + 1)) a
  closes : S 0 ++ [incoming] = 0 :: S phases.length

/-- The streams of a feedback loop that has ended with the signal `s`. -/
structure Streams (program phases : List ℤ) (T : ℕ → List ℤ) (s : ℤ) : Prop where
  settles : ∀ i phase, phases[i]? = some phase → ∃ ending,
    (load program).Settles (phase :: T i) (T (i + 1)) ending ∧
      (i + 1 = phases.length → ending = .halted)
  closes : T 0 ++ [s] = 0 :: T phases.length

theorem wired_start (program phases : List ℤ) :
    Wired program phases (phases.map (inLoop program)) 0 fun _ => [] where
  length := by simp
  stands i a phase ha hphase := by
    rw [List.getElem?_map, hphase] at ha
    cases ha
    exact ⟨0, by rw [amid_nil_nil]; rfl⟩
  closes := rfl

/-- A lap adds one value to every stream. -/
theorem Wired.round {program phases : List ℤ} {amplifiers : List Computer} {S : ℕ → List ℤ}
    (hwired : Wired program phases amplifiers incoming S)
    (h : round budget amplifiers incoming halted = .ok after)
    (hone : ∀ c ∈ lap budget amplifiers incoming, c.outputs.size = 1) :
    ∃ T : ℕ → List ℤ, T phases.length = S phases.length ++ [after.signal] ∧
      Wired program phases after.amplifiers after.signal T ∧
      (after.halted = true → Streams program phases T after.signal) := by
  obtain ⟨x, hx, hsignal, hlength, hvalues⟩ := exists_values_of_round h hone
  rw [hwired.length] at hsignal hlength hvalues
  -- the first stream lags behind the last one by the signal that goes round
  have hcloses : (S 0 ++ [x 0]) ++ [after.signal] =
      0 :: (S phases.length ++ [x phases.length]) := by
    rw [hx, hsignal, hwired.closes, List.cons_append]
  have hruns : ∀ i phase, phases[i]? = some phase → ∃ old ending left,
      Stands program (phase :: S i) (S (i + 1)) old ∧
      run budget (old.feed (x i)) = some ⟨ending, left⟩ ∧ (∀ fault, ending ≠ .failed fault) ∧
      left.outputs.toList = [x (i + 1)] ∧ after.amplifiers[i]? = some left.takeOutputs ∧
      (i + 1 = phases.length → after.halted = true → ending = .halted) := by
    intro i phase hphase
    have hlt := (List.getElem?_eq_some_iff.1 hphase).1
    have hold : amplifiers[i]? = some _ := List.getElem?_eq_getElem (hwired.length ▸ hlt)
    obtain ⟨ending, left, hvalue⟩ := hvalues i _ hold
    exact ⟨_, ending, left, hwired.stands i _ phase hold hphase, hvalue⟩
  refine ⟨fun i => S i ++ [x i], congrArg (fun v => S phases.length ++ [v]) hsignal,
    ⟨hlength, ?_, hcloses⟩, fun hhalted => ⟨?_, hcloses⟩⟩
  · intro i a phase ha hphase
    obtain ⟨old, ending, left, hstands, hrun, hending, houtputs, hleft, -⟩ := hruns i phase hphase
    cases ha.symm.trans hleft
    have hstands' := (hstands.run hrun hending).2
    rwa [houtputs, List.cons_append] at hstands'
  · intro i phase hphase
    obtain ⟨old, ending, left, hstands, hrun, hending, houtputs, -, hhalts⟩ := hruns i phase hphase
    have hsettles := (hstands.run hrun hending).1
    rw [houtputs, List.cons_append] at hsettles
    exact ⟨ending, hsettles, fun hlast => hhalts hlast hhalted⟩

/-! ### Lap by lap -/

theorem loop_succ_eq_ok {left rounds : ℕ} {amplifiers : List Computer} {settled : Settled}
    (h : loop budget (left + 1) rounds amplifiers incoming = .ok settled) :
    ∃ after, round budget amplifiers incoming true = .ok after ∧
      (after.halted = true → settled.signal = after.signal ∧
        laps budget (left + 1) amplifiers incoming = [lap budget amplifiers incoming]) ∧
      (after.halted = false →
        loop budget left (rounds + 1) after.amplifiers after.signal = .ok settled ∧
        laps budget (left + 1) amplifiers incoming =
          lap budget amplifiers incoming :: laps budget left after.amplifiers after.signal) := by
  rw [loop] at h
  obtain ⟨after, hround, h⟩ := bind_eq_ok.1 h
  refine ⟨after, hround, fun hhalted => ?_, fun hhalted => ?_⟩
  · rw [if_pos hhalted] at h
    cases h
    exact ⟨rfl, by rw [laps, hround]; simp only [hhalted, if_true]⟩
  · rw [hhalted, if_neg Bool.false_ne_true] at h
    exact ⟨h, by rw [laps, hround]; simp only [hhalted, Bool.false_eq_true, if_false]⟩

theorem signals_cons {amplifiers : List Computer} (hne : amplifiers ≠ [])
    (h : round budget amplifiers incoming halted = .ok after) (others : List (List Computer)) :
    signals (lap budget amplifiers incoming :: others) = after.signal :: signals others := by
  rw [signals, List.filterMap_cons, getLast?_lap hne h]
  rfl

/-- A loop that ends adds its signals to the last amplifier's stream. -/
theorem Wired.loop {program phases : List ℤ} (hne : phases ≠ []) {left rounds : ℕ}
    {amplifiers : List Computer} {S : ℕ → List ℤ} {settled : Settled}
    (hwired : Wired program phases amplifiers incoming S)
    (h : loop budget left rounds amplifiers incoming = .ok settled)
    (hone : ∀ lap ∈ laps budget left amplifiers incoming, ∀ c ∈ lap, c.outputs.size = 1) :
    ∃ T, Streams program phases T settled.signal ∧
      T phases.length = S phases.length ++ signals (laps budget left amplifiers incoming) ∧
      (T phases.length).getLast? = some settled.signal := by
  induction left generalizing rounds amplifiers incoming S with
  | zero =>
    -- a lap that cannot be counted does not end the loop
    rw [Amplifier.loop] at h
    obtain ⟨after, -, h⟩ := bind_eq_ok.1 h
    cases h
  | succ left ih =>
    have hamplifiers : amplifiers ≠ [] := by
      rintro rfl
      exact hne (List.length_eq_zero_iff.1 hwired.length.symm)
    obtain ⟨after, hround, hlast, hmore⟩ := loop_succ_eq_ok h
    cases hhalted : after.halted with
    | true =>
      obtain ⟨hsignal, hlaps⟩ := hlast hhalted
      rw [hlaps] at hone
      obtain ⟨T, hT, -, hstreams⟩ := hwired.round hround (hone _ List.mem_cons_self)
      rw [hlaps, signals_cons hamplifiers hround, hsignal]
      refine ⟨T, hstreams hhalted, hT, ?_⟩
      rw [hT, List.getLast?_concat]
    | false =>
      obtain ⟨hloop, hlaps⟩ := hmore hhalted
      rw [hlaps] at hone
      obtain ⟨T, hT, hwired', -⟩ := hwired.round hround (hone _ List.mem_cons_self)
      obtain ⟨T', hstreams, hT', hlast⟩ :=
        ih hwired' hloop fun lap hlap => hone lap (List.mem_cons_of_mem _ hlap)
      rw [hlaps, signals_cons hamplifiers hround]
      exact ⟨T', hstreams, by rw [hT', hT, List.append_assoc]; rfl, hlast⟩

/-- **The streams of a feedback loop.**  A loop that ends, and in which every run puts out one
value, has streams between its amplifiers, and the last amplifier's is that of the signals. -/
theorem exists_streams_of_feedback {program phases : List ℤ} {s : ℤ} (hne : phases ≠ [])
    (h : feedback budget program phases = .ok s)
    (hone : ∀ lap ∈ feedbackLaps budget program phases, ∀ c ∈ lap, c.outputs.size = 1) :
    ∃ T, Streams program phases T s ∧
      T phases.length = signals (feedbackLaps budget program phases) ∧
      (T phases.length).getLast? = some s := by
  obtain ⟨settled, hsettle, rfl⟩ := map_eq_ok.1 h
  obtain ⟨T, hstreams, hT, hlast⟩ := (wired_start program phases).loop hne hsettle hone
  exact ⟨T, hstreams, hT, hlast⟩

end Shipboard.Amplifier

import ProgramSearch.Proofs.Beam.Calls
import ProgramSearch.Proofs.Beam.Distinct

/-!
# Stopping early

Every round leaves a beam in the order of its scores, the live candidates first. Once none of these
is rolling, a further round extends each of them by itself alone and everything else to a dead
candidate, so that the live ones stay as they are, whatever the oracle answers. A search that stops
there has missed nothing.
-/
namespace ProgramSearch

variable {ω σ : Type}

namespace Beam

/-- A beam after a round in which nothing more can happen to the live candidates. -/
structure Settled (v : Vocabulary) (width done : Nat) (beam : List (Candidate σ)) : Prop where
  intact : Intact v width done beam
  ordered : beam.Pairwise fun c d => orderKey d.logProb ≤ orderKey c.logProb
  ne_minus_zero : ∀ c ∈ beam, c.logProb ≠ -0.0
  stopped : ∀ c ∈ beam, c.isLive = true → c.rolling = false

theorem isRolling_eq_false_iff {beam : List (Candidate σ)} :
    isRolling beam = false ↔ ∀ c ∈ beam, c.isLive = true → c.rolling = false := by
  simp [isRolling]

section

variable {v : Vocabulary} {width done row col : Nat} {beam next : List (Candidate σ)}
  {output : StepOutput σ} {k : Control} {e : Extension} {c d : Candidate σ}

theorem Descends.ne_minus_zero (h : Descends k output row col c d) (hc : c.logProb ≠ -0.0) :
    d.logProb ≠ -0.0 := by
  cases h with
  | grown =>
    rw [Candidate.step_logProb]
    exact Single.add_ne_minus_zero hc _
  | kept => exact Single.add_ne_minus_zero hc _
  | dropped => exact Single.add_ne_minus_zero hc _

theorem ne_minus_zero_advance (h : advance width v beam output = .ok next)
    (hbeam : ∀ c ∈ beam, c.logProb ≠ -0.0) : ∀ d ∈ next, d.logProb ≠ -0.0 := by
  intro d hd
  obtain ⟨places, -, hdescends⟩ := descends_of_advance h
  obtain ⟨i, hi⟩ := List.mem_iff_getElem?.mp hd
  obtain ⟨row, col, c, -, hc, -, hdescends⟩ := hdescends i d hi
  exact hdescends.ne_minus_zero (hbeam c (List.mem_of_getElem? hc))

theorem logProb_of_extend (h : extend k beam output e = .ok d) : d.logProb = e.score := by
  obtain ⟨c, hc, -⟩ := bind_ok h
  have hc := lookup_eq_ok_iff.mp hc
  cases hrolls : c.rolling with
  | true =>
    obtain ⟨-, state, ids, symbol, -, -, -, rfl⟩ := extend_of_rolling hc hrolls h
    exact (Candidate.grow_kept k _ symbol).1
  | false => rw [extend_of_stopped hc hrolls h]

/-- A round leaves the beam in the order of its scores. -/
theorem ordered_advance (h : advance width v beam output = .ok next) :
    next.Pairwise fun c d => orderKey d.logProb ≤ orderKey c.logProb := by
  obtain ⟨-, all, -, hnext⟩ := advance_ok h
  have hscores : next.map (·.logProb) = (select width all).map (·.score) :=
    map_of_mapM hnext fun _ _ _ hextend => logProb_of_extend hextend
  have hranked := (pairwise_ranked all).sublist (select_sublist width all)
  rw [← List.pairwise_map (f := Extension.score) (R := fun x y => orderKey y ≤ orderKey x),
    ← hscores, List.pairwise_map] at hranked
  exact hranked

/-! ### The extensions of a settled beam -/

/-- The extension by which a live candidate goes on unchanged. -/
def unchanged? (slot : Candidate σ × Nat) : Option Extension :=
  if slot.1.isLive then some ⟨slot.1.logProb, slot.2, 0⟩ else none

theorem not_isFinite_of_dead {slot : Candidate σ × Nat} {es : List Extension}
    (dead : slot.1.isLive = false) (h : rowExtensions width output slot = .ok es) :
    ∀ e ∈ es, ¬ e.score.isFinite = true := by
  intro e he finite
  obtain ⟨-, -, scores, step, -, -, hscore⟩ := (mem_rowExtensions h).mp he
  rw [hscore] at finite
  exact absurd (Single.isFinite_of_add finite).1 (Bool.eq_false_iff.mp dead)

/-- Whatever the answer to a stopped candidate, it goes on by itself in the first column, and with
no probability in the others. -/
theorem rowExtensions_of_stopped {slot : Candidate σ × Nat} {es : List Extension} {n : Nat}
    (stopped : slot.1.rolling = false) (h : rowExtensions (n + 1) output slot = .ok es) :
    es = ⟨slot.1.logProb + 0, slot.2, 0⟩ :: (List.range n).map fun col =>
      ⟨slot.1.logProb + negInfinity, slot.2, col + 1⟩ := by
  obtain ⟨scores, -, h⟩ := bind_ok h
  have hes : es = (List.range (n + 1)).map fun col =>
      ⟨slot.1.logProb + (if col == 0 then 0 else negInfinity), slot.2, col⟩ := by
    rw [← List.map_id es]
    refine map_of_mapM h fun col _ e he => ?_
    rw [stepScore, if_neg (by simp [stopped])] at he
    exact (Except.ok.inj he).symm
  rw [hes, List.range_succ_eq_map, List.map_cons, List.map_map]
  rfl

/-- Of a candidate that does not roll unless it is dead, the only extension with a finite score is
the one by which it goes on unchanged. -/
theorem finite_rowExtensions {slot : Candidate σ × Nat} {es : List Extension} (hwidth : 0 < width)
    (stopped : slot.1.isLive = true → slot.1.rolling = false) (nonzero : slot.1.logProb ≠ -0.0)
    (h : rowExtensions width output slot = .ok es) :
    es.filter (·.score.isFinite) = (unchanged? slot).toList := by
  cases live : slot.1.isLive with
  | false =>
    rw [unchanged?, if_neg (by simp [live]), Option.toList_none, List.filter_eq_nil_iff]
    exact not_isFinite_of_dead live h
  | true =>
    obtain ⟨n, rfl⟩ : ∃ n, width = n + 1 := ⟨width - 1, by omega⟩
    have hfirst : slot.1.logProb.isFinite = true := live
    rw [rowExtensions_of_stopped (stopped live) h, Single.add_zero nonzero, List.filter_cons,
      if_pos hfirst, unchanged?, if_pos live, Option.toList_some, List.cons.injEq,
      and_iff_right rfl, List.filter_eq_nil_iff]
    intro e he
    obtain ⟨col, -, rfl⟩ := List.mem_map.mp he
    exact Bool.eq_false_iff.mp (not_isFinite_add_negInfinity _)

theorem finite_extensions (h : Settled v width done beam) {all : List Extension}
    (hwidth : 0 < width) (hall : extensions width beam output = .ok all) :
    all.filter (·.score.isFinite) = beam.zipIdx.filterMap unchanged? := by
  rw [extensions_eq] at hall
  obtain ⟨rows, hrows, hall⟩ := bind_ok hall
  obtain rfl := Except.ok.inj hall
  have hfinite : rows.map (List.filter (·.score.isFinite)) =
      beam.zipIdx.map fun slot => (unchanged? slot).toList := by
    refine map_of_mapM hrows fun slot hslot es hes => ?_
    have hmem := List.fst_mem_of_mem_zipIdx hslot
    exact finite_rowExtensions hwidth (h.stopped _ hmem) (h.ne_minus_zero _ hmem) hes
  rw [List.filter_flatten, hfinite, List.filterMap_eq_flatMap_toList, List.flatMap_def]

/-- Sorting keeps the order of the extensions by which live candidates go on unchanged. -/
theorem finite_ranked (h : Settled v width done beam) {all : List Extension} (hwidth : 0 < width)
    (hall : extensions width beam output = .ok all) :
    (ranked all).filter (·.score.isFinite) = beam.zipIdx.filterMap unchanged? := by
  have hfinite := finite_extensions h hwidth hall
  have hordered : (beam.zipIdx.filterMap unchanged?).Pairwise fun a b =>
      orderKey b.score ≤ orderKey a.score := by
    have hslots := h.ordered
    rw [← List.zipIdx_map_fst 0 beam, List.pairwise_map] at hslots
    rw [List.pairwise_filterMap]
    refine hslots.imp fun {slot slot'} hle e he e' he' => ?_
    obtain rfl := Option.some.inj (Option.ite_none_right_eq_some.mp he).2
    obtain rfl := Option.some.inj (Option.ite_none_right_eq_some.mp he').2
    exact hle
  -- The sorted list has no other finite extensions than these, and it has them in this order.
  have hsublist := (sublist_ranked List.filter_sublist (hfinite ▸ hordered)).filter
    (·.score.isFinite)
  rw [List.filter_filter] at hsublist
  simp only [Bool.and_self] at hsublist
  rw [← hfinite]
  exact (hsublist.eq_of_length ((ranked_perm all).filter _).length_eq.symm).symm

theorem extend_unchanged (hc : beam[row]? = some c) (stopped : c.rolling = false) :
    extend k beam output ⟨c.logProb, row, col⟩ = .ok c := by
  rw [extend, lookup_eq_ok_iff.mpr hc, ok_bind, if_neg (by simp [stopped])]
  rfl

theorem mapM_extend_unchanged (h : ∀ c ∈ beam, c.isLive = true → c.rolling = false) :
    (beam.zipIdx.filterMap unchanged?).mapM (extend k beam output) =
      .ok (beam.filter (·.isLive)) := by
  rw [mapM_eq_ok_iff, List.map_filterMap]
  conv_rhs => rw [← List.zipIdx_map_fst 0 beam, List.filter_map]
  rw [← List.filterMap_eq_filter, List.map_filterMap, List.map_filterMap]
  refine List.filterMap_congr fun slot hslot => ?_
  have hc : beam[slot.2]? = some slot.1 := List.mk_mem_zipIdx_iff_getElem?.mp hslot
  cases live : slot.1.isLive with
  | false => simp [unchanged?, live]
  | true =>
    have hextend : extend k beam output ⟨slot.1.logProb, slot.2, 0⟩ = .ok slot.1 :=
      extend_unchanged hc (h slot.1 (List.mem_of_getElem? hc) live)
    simp [unchanged?, live, hextend]

/-- A round leaves the live candidates of a settled beam as they are. -/
theorem Settled.filter_advance (h : Settled v width done beam)
    (hnext : advance width v beam output = .ok next) :
    next.filter (·.isLive) = beam.filter (·.isLive) := by
  have hlength := length_advance hnext h.intact.length
  rcases Nat.eq_zero_or_pos width with hzero | hwidth
  · obtain rfl := List.length_eq_zero_iff.mp (hlength.trans hzero)
    obtain rfl := List.length_eq_zero_iff.mp (h.intact.length.trans hzero)
    rfl
  · obtain ⟨haccepted, all, hall, hnext⟩ := advance_ok hnext
    -- There is at most one finite extension for each candidate, so none of them is cut off.
    have hroom : all.countP (·.score.isFinite) ≤ width := by
      rw [List.countP_eq_length_filter, finite_extensions h hwidth hall, ← h.intact.length,
        ← List.length_zipIdx (l := beam) (i := 0)]
      exact List.length_filterMap_le _ _
    have hselect := filter_select
      (not_above_extensions hall haccepted h.intact.length h.intact.not_above) hroom
    have hlive := filter_mapM hnext (p := (·.score.isFinite)) (q := (·.isLive))
      fun e d hextend => by rw [Candidate.isLive, logProb_of_extend hextend]
    rw [hselect, finite_ranked h hwidth hall, mapM_extend_unchanged h.stopped] at hlive
    exact (Except.ok.inj hlive).symm

theorem Settled.advance (h : Settled v width done beam)
    (hnext : Beam.advance width v beam output = .ok next) : Settled v width (done + 1) next := by
  refine ⟨h.intact.advance hnext, ordered_advance hnext,
    ne_minus_zero_advance hnext h.ne_minus_zero, fun d hd live => ?_⟩
  have hmem : d ∈ beam.filter (·.isLive) :=
    h.filter_advance hnext ▸ List.mem_filter.mpr ⟨hd, live⟩
  exact h.stopped d (List.mem_filter.mp hmem).1 live

end

/-! ### The finished candidates -/

/-- Where live candidates come first, the finished ones and their slots depend on these alone. -/
theorem finished_filter_isLive {beam : List (Candidate σ)}
    (first : beam.Pairwise fun c d => d.isLive = true → c.isLive = true) (n m : Nat) :
    (⟨beam.filter (·.isLive), m⟩ : BeamOutcome σ).finished =
      (⟨beam, n⟩ : BeamOutcome σ).finished := by
  have hdead : ∀ i, ((beam.filter fun c => !c.isLive).zipIdx i).filterMap
      (fun slot => if slot.1.isFinished then some (slot.2, slot.1) else none) = [] := by
    intro i
    refine List.filterMap_eq_nil_iff.mpr fun slot hslot => if_neg ?_
    have hmem := (List.mem_filter.mp (List.fst_mem_of_mem_zipIdx hslot)).2
    simp_all [Candidate.isFinished]
  conv_rhs => rw [← filter_append_filter_not first]
  simp only [BeamOutcome.finished, List.zipIdx_append, List.filterMap_append, hdead,
    List.append_nil]

namespace Settled

variable {v : Vocabulary} {width done : Nat} {beam : List (Candidate σ)}

theorem live_first (h : Settled v width done beam) :
    beam.Pairwise fun c d => d.isLive = true → c.isLive = true :=
  finite_first h.ordered h.intact.not_above

theorem finished_eq {beam' : List (Candidate σ)} {done' : Nat} (h : Settled v width done beam)
    (h' : Settled v width done' beam')
    (hlive : beam.filter (·.isLive) = beam'.filter (·.isLive)) (n m : Nat) :
    (⟨beam, n⟩ : BeamOutcome σ).finished = (⟨beam', m⟩ : BeamOutcome σ).finished := by
  rw [← finished_filter_isLive h.live_first n n, hlive,
    finished_filter_isLive h'.live_first m n]

end Settled

/-! ### Going on regardless -/

/-- A number of rounds one after the other, whether or not a live candidate is rolling. -/
def unstopped (oracle : Oracle ω σ) (width : Nat) :
    Nat → List (Candidate σ) → Consult ω (List (Candidate σ))
  | 0, beam => return beam
  | n + 1, beam => do
    let next ← round oracle width beam
    unstopped oracle width n next

theorem unstopped_add (oracle : Oracle ω σ) (width m n : Nat) (beam : List (Candidate σ)) :
    unstopped oracle width (m + n) beam =
      unstopped oracle width m beam >>= unstopped oracle width n := by
  induction m generalizing beam with
  | zero => rw [Nat.zero_add, unstopped, pure_bind]
  | succ m ih =>
    rw [Nat.add_right_comm, unstopped, unstopped, bind_assoc]
    exact bind_congr ih

/-- After `n` rounds, at least one, no live candidate is rolling. -/
def StopsAfter (oracle : Oracle ω σ) (width : Nat) (state : σ) (world : ω) (n : Nat) : Prop :=
  0 < n ∧ ∃ beam mid,
    (unstopped oracle width n (start oracle.vocabulary.control width state)).ask world =
      (.ok beam, mid) ∧ isRolling beam = false

section

variable {oracle : Oracle ω σ} {settings : BeamSettings} {state : σ} {world mid world' : ω}
  {done : Nat} {beam last : List (Candidate σ)}

/-- Further rounds leave the live candidates of a settled beam as they are. -/
theorem Settled.unstopped {width n : Nat} (h : Settled oracle.vocabulary width done beam)
    (hlast : (Beam.unstopped oracle width n beam).ask mid = (.ok last, world')) :
    Settled oracle.vocabulary width (done + n) last ∧
      last.filter (·.isLive) = beam.filter (·.isLive) := by
  induction n generalizing done beam mid with
  | zero =>
    obtain rfl : beam = last := Except.ok.inj (congrArg Prod.fst hlast)
    exact ⟨h, rfl⟩
  | succ n ih =>
    obtain ⟨next, mid', hround, hrest⟩ := Consult.ask_bind_ok hlast
    obtain ⟨output, -, hnext⟩ := round_ok hround
    obtain ⟨hsettled, hlive⟩ := ih (h.advance hnext) hrest
    rw [Nat.add_right_comm] at hsettled
    exact ⟨hsettled, hlive.trans (h.filter_advance hnext)⟩

theorem Reached.unstopped (h : Reached oracle settings state world done beam mid) :
    (Beam.unstopped oracle settings.width done
      (Beam.start oracle.vocabulary.control settings.width state)).ask world = (.ok beam, mid) := by
  induction h with
  | start => rfl
  | round _ _ _ answered ih =>
    rw [unstopped_add, Consult.ask_bind_of_ok _ ih, Beam.unstopped,
      Consult.ask_bind_of_ok _ answered]
    rfl

theorem Reached.ne_minus_zero (h : Reached oracle settings state world done beam mid) :
    ∀ c ∈ beam, c.logProb ≠ -0.0 := by
  refine h.invariant (P := fun _ beam => ∀ c ∈ beam, c.logProb ≠ -0.0) (fun c hc => ?_)
    fun _ hbeam _ hnext => ne_minus_zero_advance hnext hbeam
  obtain ⟨slot, -, rfl⟩ := List.mem_map.mp hc
  simp only [Candidate.start]
  split <;> decide

theorem Reached.settled (h : Reached oracle settings state world done beam mid)
    (started : 0 < done) (stopped : isRolling beam = false) :
    Settled oracle.vocabulary settings.width done beam := by
  -- The order is that of the last round, which is there because the search has started.
  refine ⟨h.intact, ?_, h.ne_minus_zero, isRolling_eq_false_iff.mp stopped⟩
  cases h with
  | start => contradiction
  | round _ _ _ answered =>
    obtain ⟨output, -, hnext⟩ := round_ok answered
    exact ordered_advance hnext

/-- A search goes on as long as a live candidate is rolling. -/
theorem Reached.rolling_before (h : Reached oracle settings state world done beam mid) {n : Nat}
    (started : 0 < n) (before : n < done) :
    ∃ beam' mid', Reached oracle settings state world n beam' mid' ∧ isRolling beam' = true := by
  induction h with
  | start => contradiction
  | @round done beam _ mid _ reached _ rolls _ ih =>
    rcases Nat.lt_succ_iff_lt_or_eq.mp before with hlt | rfl
    · exact ih hlt
    · exact ⟨beam, mid, reached, rolls.resolve_left (Nat.ne_of_gt started)⟩

theorem Reached.stopsAfter_iff (h : Reached oracle settings state world done beam mid)
    (started : 0 < done) :
    StopsAfter oracle settings.width state world done ↔ isRolling beam = false := by
  constructor
  · rintro ⟨-, beam', mid', hbeam', stopped⟩
    obtain rfl : beam = beam' :=
      Except.ok.inj (congrArg Prod.fst (h.unstopped.symm.trans hbeam'))
    exact stopped
  · exact fun stopped => ⟨started, beam, mid, h.unstopped, stopped⟩

theorem Reached.not_stopsAfter (h : Reached oracle settings state world done beam mid) {n : Nat}
    (before : n < done) : ¬ StopsAfter oracle settings.width state world n := by
  intro hstops
  obtain ⟨beam', mid', hreached, rolls⟩ := h.rolling_before hstops.1 before
  simp [(hreached.stopsAfter_iff hstops.1).mp hstops] at rolls

/-- A beam in which no live candidate is rolling ends every run that has rounds enough for it. -/
theorem Reached.run_of_stopped (h : Reached oracle settings state world done beam mid)
    (started : 0 < done) (stopped : isRolling beam = false) {cap : Nat} (hcap : done ≤ cap) :
    (run oracle ⟨settings.width, cap⟩ state).ask world = (.ok ⟨beam, done⟩, mid) := by
  cases h with
  | start => contradiction
  | @round done beam next mid world' before _ rolls answered =>
    obtain ⟨left, rfl⟩ : ∃ left, cap = done + (left + 1) := ⟨cap - (done + 1), by omega⟩
    rw [run, before.rounds_eq rolls, rounds, Consult.ask_bind_of_ok _ answered,
      if_neg (by simp [stopped])]
    rfl

/-- Rounds end when none is left, or early after one that leaves no live candidate rolling. -/
theorem rounds_ended {left : Nat} {outcome : BeamOutcome σ}
    (h : (rounds oracle settings.width left done beam).ask mid = (.ok outcome, world')) :
    outcome.rounds ≤ done + left ∧ (outcome.rounds = done + left ∨
      done < outcome.rounds ∧ isRolling outcome.candidates = false) := by
  induction left generalizing done beam mid with
  | zero =>
    obtain rfl : ⟨beam, done⟩ = outcome := Except.ok.inj (congrArg Prod.fst h)
    exact ⟨Nat.le_refl done, .inl rfl⟩
  | succ left ih =>
    obtain ⟨next, mid', -, h⟩ := Consult.ask_bind_ok h
    split at h
    · obtain ⟨hle, hend⟩ := ih h
      exact ⟨by omega, hend.imp (by omega) fun hstopped => ⟨by omega, hstopped.2⟩⟩
    · next hstopped =>
      obtain rfl : ⟨next, done + 1⟩ = outcome := Except.ok.inj (congrArg Prod.fst h)
      exact ⟨by simp only; omega, .inr ⟨Nat.lt_succ_self done, by simpa using hstopped⟩⟩

/-- The number of rounds of a search is the first one after which no live candidate is rolling, or
else the cap. -/
theorem rounds_of_run {outcome : BeamOutcome σ}
    (h : (run oracle settings state).ask world = (.ok outcome, world')) :
    outcome.rounds ≤ settings.maxRounds ∧
      (∀ n < outcome.rounds, ¬ StopsAfter oracle settings.width state world n) ∧
      (StopsAfter oracle settings.width state world outcome.rounds ∨
        outcome.rounds = settings.maxRounds) := by
  have hreached := reached_of_run h
  obtain ⟨hle, hend⟩ := rounds_ended h
  rw [Nat.zero_add] at hle hend
  refine ⟨hle, fun n hn => hreached.not_stopsAfter hn, hend.symm.imp_left fun hstopped => ?_⟩
  exact (hreached.stopsAfter_iff hstopped.1).mpr hstopped.2

/-- A search that stopped early has missed nothing: with more rounds to go it ends in the same way,
and rounds that are made nevertheless change neither the live nor the finished candidates. -/
theorem stopped_for_good {outcome : BeamOutcome σ}
    (h : (run oracle settings state).ask world = (.ok outcome, world'))
    (stops : StopsAfter oracle settings.width state world outcome.rounds) {cap : Nat}
    (hcap : outcome.rounds ≤ cap) :
    (run oracle ⟨settings.width, cap⟩ state).ask world = (.ok outcome, world') ∧
      ∀ last mid, (Beam.unstopped oracle settings.width cap
          (start oracle.vocabulary.control settings.width state)).ask world = (.ok last, mid) →
        last.filter (·.isLive) = outcome.candidates.filter (·.isLive) ∧
          (⟨last, cap⟩ : BeamOutcome σ).finished = outcome.finished := by
  have hreached := reached_of_run h
  have stopped := (hreached.stopsAfter_iff stops.1).mp stops
  refine ⟨hreached.run_of_stopped stops.1 stopped hcap, fun last mid hlast => ?_⟩
  obtain ⟨further, rfl⟩ := Nat.exists_eq_add_of_le hcap
  rw [unstopped_add, Consult.ask_bind_of_ok _ hreached.unstopped] at hlast
  have hsettled := hreached.settled stops.1 stopped
  obtain ⟨hsettled', hlive⟩ := hsettled.unstopped hlast
  exact ⟨hlive, hsettled'.finished_eq hsettled hlive _ _⟩

/-- In a beam where no live candidate is rolling, a further round leaves the live candidates as they
are, whatever the oracle answers within its contract. A search asks for one step in each round; it
makes as many rounds as it takes for no live candidate to be rolling, but at least one and at most
the cap; and where it stopped for that reason, a larger cap makes no difference to what it finds. -/
theorem early_stop_sound (oracle : Oracle ω σ) (settings : BeamSettings) (state : σ) (world : ω) :
    (∀ done beam mid, Reached oracle settings state world done beam mid → 0 < done →
      isRolling beam = false → ∀ output : StepOutput σ,
        output.breach? settings.width settings.width oracle.vocabulary.size = none →
        ∃ next, advance settings.width oracle.vocabulary beam output = .ok next ∧
          next.filter (·.isLive) = beam.filter (·.isLive)) ∧
    ∀ outcome world', (run oracle settings state).ask world = (.ok outcome, world') →
      (∃ calls, (run oracle.recorded settings state).ask (world, []) =
          (.ok outcome, world', calls) ∧ calls.length = outcome.rounds) ∧
      (outcome.rounds ≤ settings.maxRounds ∧
        (∀ n < outcome.rounds, ¬ StopsAfter oracle settings.width state world n) ∧
        (StopsAfter oracle settings.width state world outcome.rounds ∨
          outcome.rounds = settings.maxRounds)) ∧
      (StopsAfter oracle settings.width state world outcome.rounds →
        ∀ cap ≥ outcome.rounds,
          (run oracle ⟨settings.width, cap⟩ state).ask world = (.ok outcome, world') ∧
          ∀ last mid, (Beam.unstopped oracle settings.width cap
              (start oracle.vocabulary.control settings.width state)).ask world = (.ok last, mid) →
            last.filter (·.isLive) = outcome.candidates.filter (·.isLive) ∧
              (⟨last, cap⟩ : BeamOutcome σ).finished = outcome.finished) := by
  constructor
  · intro done beam mid reached started stopped output haccepted
    have hsettled := reached.settled started stopped
    obtain ⟨next, hnext⟩ := exists_advance hsettled.intact.length hsettled.intact.placed haccepted
    exact ⟨next, hnext, hsettled.filter_advance hnext⟩
  · intro outcome world' h
    exact ⟨run_recorded h, rounds_of_run h, fun stops _ hcap => stopped_for_good h stops hcap⟩

end

/-! ### A search that stops at once -/

/-- Offers a stop, and "open" with no probability. -/
def closingRow (input : StepInput Nat) : Row Nat :=
  ⟨input.state + 1, [-0.5, negInfinity], [1, 5]⟩

def closingOracle : Oracle Unit Nat := .ofRows .small 2 0 closingRow

/-- The first beam and the one after a round: a stopped candidate and a dead one that rolls. -/
def closingBeam : Nat → List (Candidate Nat)
  | 0 => Beam.start Vocabulary.small.control 2 0
  | _ =>
    let parent := Candidate.start Vocabulary.small.control 0 0
    [parent.step Vocabulary.small.control 1 (-0.5) 1,
      parent.step Vocabulary.small.control 1 negInfinity 5]

theorem extensions_closing :
    extensions 2 (closingBeam 0) ⟨[1, 1], [[-0.5, negInfinity], [-0.5, negInfinity]],
        [[1, 5], [1, 5]]⟩ =
      .ok [⟨0 + -0.5, 0, 0⟩, ⟨0 + negInfinity, 0, 1⟩, ⟨negInfinity + -0.5, 1, 0⟩,
        ⟨negInfinity + negInfinity, 1, 1⟩] := rfl

theorem reached_closingBeam : Reached closingOracle ⟨2, 5⟩ 0 () 1 (closingBeam 1) () :=
  .round .start (by decide) (.inl rfl)
    (congrArg (·, ()) ((advance_of_sorted (by decide) extensions_closing (by decide)).trans rfl))

theorem early_stop_sound_sample :
    (run closingOracle ⟨2, 5⟩ 0).ask () = (.ok ⟨closingBeam 1, 1⟩, ()) ∧
    (closingBeam 1).map (fun c => (c.isLive, c.rolling)) = [(true, false), (false, true)] ∧
    (∀ output : StepOutput Nat, output.breach? 2 2 closingOracle.vocabulary.size = none →
      ∃ next, advance 2 closingOracle.vocabulary (closingBeam 1) output = .ok next ∧
        next.filter (·.isLive) = (closingBeam 1).filter (·.isLive)) ∧
    (∃ calls, (run closingOracle.recorded ⟨2, 5⟩ 0).ask ((), []) =
      (.ok ⟨closingBeam 1, 1⟩, (), calls) ∧ calls.length = 1) ∧
    (run closingOracle ⟨2, 9⟩ 0).ask () = (.ok ⟨closingBeam 1, 1⟩, ()) := by
  have stopped : isRolling (closingBeam 1) = false := rfl
  have hrun := reached_closingBeam.run_of_stopped (by decide) stopped (by decide : 1 ≤ 5)
  obtain ⟨hround, hruns⟩ := early_stop_sound closingOracle ⟨2, 5⟩ 0 ()
  obtain ⟨hcalls, -, hcaps⟩ := hruns _ _ hrun
  have stops := (reached_closingBeam.stopsAfter_iff (by decide)).mpr stopped
  exact ⟨hrun, rfl, hround 1 _ _ reached_closingBeam (by decide) stopped, hcalls,
    (hcaps stops 9 (by decide)).1⟩

end Beam
end ProgramSearch

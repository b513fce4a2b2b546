import ProgramSearch.Proofs.Beam.Run

/-!
# Distinct candidates

If no accepted row lists a symbol twice with finite scores, no two live candidates of a beam have
the same tree. A rolling candidate has one symbol for each round, so what it grows into differs from
all stopped candidates; and what grows from one tree differs in its last symbol.
-/
namespace ProgramSearch

variable {ω σ : Type}

namespace Beam

/-- Live candidates in different slots have different trees. -/
def TreesDiffer (beam : List (Candidate σ)) : Prop :=
  ∀ (i j : Nat) (c d : Candidate σ), beam[i]? = some c → beam[j]? = some d →
    c.isLive = true → d.isLive = true → c.tree = d.tree → i = j

theorem nodup_live {α : Type} {beam : List (Candidate σ)} {f : Candidate σ → α}
    (h : ∀ (i j : Nat) (c d : Candidate σ), beam[i]? = some c → beam[j]? = some d →
      c.isLive = true → d.isLive = true → f c = f d → i = j) :
    ((beam.filter (·.isLive)).map f).Nodup := by
  rw [List.Nodup, List.pairwise_map, List.pairwise_filter, List.pairwise_iff_getElem]
  intro i j hi hj hij livei livej hf
  have heq := h i j _ _ (List.getElem?_eq_getElem hi) (List.getElem?_eq_getElem hj) livei livej hf
  omega

section

variable {v : Vocabulary} {k : Control} {output : StepOutput σ} {row col row' col' done : Nat}
  {c c' d d' : Candidate σ}

theorem not_isFinite_negInfinity : negInfinity.isFinite = false := by decide

theorem not_isFinite_add_negInfinity (x : Float32) : (x + negInfinity).isFinite = false :=
  Bool.eq_false_iff.mpr fun h =>
    absurd (Single.isFinite_of_add h).2 (by simp [not_isFinite_negInfinity])

/-- Only live candidates have live descendants. -/
theorem Descends.isLive (h : Descends k output row col c d) (live : d.isLive = true) :
    c.isLive = true := by
  cases h with
  | grown =>
    rw [Candidate.isLive, Candidate.step_logProb] at live
    exact (Single.isFinite_of_add live).1
  | kept => exact (Single.isFinite_of_add live).1
  | dropped => exact (Single.isFinite_of_add live).1

theorem Descends.tree_eq_of_stopped (h : Descends k output row col c d)
    (stopped : c.rolling = false) (live : d.isLive = true) : d.tree = c.tree ∧ col = 0 := by
  cases h with
  | grown rolls => simp [stopped] at rolls
  | kept _ first => exact ⟨rfl, first⟩
  | dropped _ _ => simp [Candidate.isLive, not_isFinite_add_negInfinity] at live

theorem Descends.eq_step_of_rolling (h : Descends k output row col c d) (rolls : c.rolling = true)
    (live : d.isLive = true) : ∃ answer score symbol, output.row? row = some answer ∧
      answer.scores[col]? = some score ∧ answer.ids[col]? = some symbol ∧
      score.isFinite = true ∧ d = c.step k answer.state score symbol := by
  cases h with
  | @grown answer score symbol _ _ answered scored listed =>
    rw [Candidate.isLive, Candidate.step_logProb] at live
    exact ⟨answer, score, symbol, answered, scored, listed, (Single.isFinite_of_add live).2, rfl⟩
  | kept stopped => simp [rolls] at stopped
  | dropped stopped => simp [rolls] at stopped

/-- A live descendant has a symbol for each round if its parent was rolling, and fewer if not. -/
theorem Descends.rolling_iff (h : Descends v.control output row col c d) (hc : c.Grown v done)
    (live : d.isLive = true) : c.rolling = true ↔ d.symbols.length = done + 1 := by
  constructor
  · intro rolls
    obtain ⟨answer, score, symbol, -, -, -, -, rfl⟩ := h.eq_step_of_rolling rolls live
    rw [hc.formed.symbols_step, List.length_append, List.length_singleton, hc.length_eq rolls]
  · intro hlength
    cases hrolls : c.rolling with
    | true => rfl
    | false =>
      have hd := (h.tree_eq_of_stopped hrolls live).1
      have hle := hc.length_le
      rw [Candidate.symbols_eq_of_tree_eq hd] at hlength
      omega

/-- Live descendants with the same tree stand at the same place of an answer, as far as their
parents with the same tree do. -/
theorem Descends.place_eq (h : Descends v.control output row col c d)
    (h' : Descends v.control output row' col' c' d') (hc : c.Grown v done) (hc' : c'.Grown v done)
    (live : d.isLive = true) (live' : d'.isLive = true) (htree : d.tree = d'.tree)
    (hparents : c.tree = c'.tree → row = row')
    (once : ∀ i answer, output.row? i = some answer → answer.ListsOnce) :
    row = row' ∧ col = col' := by
  have hsymbols := Candidate.symbols_eq_of_tree_eq htree
  have hrolling : c.rolling = true ↔ c'.rolling = true := by
    rw [h.rolling_iff hc live, h'.rolling_iff hc' live', hsymbols]
  cases hrolls : c.rolling with
  | false =>
    have hrolls' : c'.rolling = false := by
      rwa [← Bool.not_eq_true, ← hrolling, Bool.not_eq_true]
    obtain ⟨hd, rfl⟩ := h.tree_eq_of_stopped hrolls live
    obtain ⟨hd', rfl⟩ := h'.tree_eq_of_stopped hrolls' live'
    exact ⟨hparents (hd.symm.trans (htree.trans hd')), rfl⟩
  | true =>
    obtain ⟨answer, score, symbol, answered, scored, listed, finite, rfl⟩ :=
      h.eq_step_of_rolling hrolls live
    obtain ⟨answer', score', symbol', answered', scored', listed', finite', rfl⟩ :=
      h'.eq_step_of_rolling (hrolling.mp hrolls) live'
    rw [hc.formed.symbols_step, hc'.formed.symbols_step] at hsymbols
    obtain ⟨hparent, hlast⟩ := List.append_inj' hsymbols rfl
    obtain rfl := List.singleton_inj.mp hlast
    have hshape := hc.formed.shape_eq hc'.formed hparent
    obtain rfl := hparents (congrArg (fun c : Candidate Unit => c.tree) hshape)
    obtain rfl := Option.some.inj (answered.symm.trans answered')
    exact ⟨rfl, (once row answer answered).col_unique listed scored finite listed' scored' finite'⟩

end

section

variable {v : Vocabulary} {width done : Nat} {beam next : List (Candidate σ)}
  {output : StepOutput σ}

theorem start_of_isLive {k : Control} {width : Nat} {state : σ} {i : Nat} {c : Candidate σ}
    (hc : (Beam.start k width state)[i]? = some c) (live : c.isLive = true) :
    i = 0 ∧ c = Candidate.start k state 0 := by
  rw [Beam.start, List.getElem?_map] at hc
  obtain ⟨slot, hslot, rfl⟩ := Option.map_eq_some_iff.mp hc
  obtain ⟨hlt, rfl⟩ := List.getElem?_eq_some_iff.mp hslot
  rw [List.getElem_range] at live ⊢
  by_cases hi : i = 0
  · subst hi
    exact ⟨rfl, rfl⟩
  · simp [Candidate.isLive, Candidate.start, hi, not_isFinite_negInfinity] at live

theorem treesDiffer_start (k : Control) (width : Nat) (state : σ) :
    TreesDiffer (Beam.start k width state) := by
  intro i j c d hc hd livec lived _
  rw [(start_of_isLive hc livec).1, (start_of_isLive hd lived).1]

theorem TreesDiffer.advance (h : TreesDiffer beam) (hbeam : Intact v width done beam)
    (hnext : advance width v beam output = .ok next)
    (once : ∀ i answer, output.row? i = some answer → answer.ListsOnce) : TreesDiffer next := by
  obtain ⟨places, hplaces, hdescends⟩ := descends_of_advance hnext
  intro i j d d' hi hj live live' htree
  obtain ⟨row, col, c, hplace, hc, -, hd⟩ := hdescends i d hi
  obtain ⟨row', col', c', hplace', hc', -, hd'⟩ := hdescends j d' hj
  obtain ⟨rfl, rfl⟩ := hd.place_eq hd' (hbeam.grown c (List.mem_of_getElem? hc))
    (hbeam.grown c' (List.mem_of_getElem? hc')) live live' htree
    (fun hparents => h row row' c c' hc hc' (hd.isLive live) (hd'.isLive live') hparents) once
  obtain ⟨hlt, -⟩ := List.getElem?_eq_some_iff.mp hplace
  exact (List.getElem?_inj hlt hplaces).mp (hplace.trans hplace'.symm)

end

section

variable {oracle : Oracle ω σ} {settings : BeamSettings} {state : σ} {world : ω}

theorem Reached.treesDiffer {mid : ω} {done : Nat} {beam : List (Candidate σ)}
    (once : oracle.ListsOnce settings.width)
    (h : Reached oracle settings state world done beam mid) : TreesDiffer beam := by
  refine h.invariant (P := fun _ beam => TreesDiffer beam) (treesDiffer_start _ _ _) ?_
  intro done beam mid output next world' before hbeam hstep hnext
  exact hbeam.advance before.intact hnext (once _ _ _ _ hstep (advance_ok hnext).1)

/-- No tree is held twice by the live candidates of a beam, or finished twice. -/
theorem live_trees_nodup (once : oracle.ListsOnce settings.width) :
    (∀ done beam mid, Reached oracle settings state world done beam mid →
      ((beam.filter (·.isLive)).map (·.tree)).Nodup) ∧
    ∀ outcome world', (run oracle settings state).ask world = (.ok outcome, world') →
      (outcome.finished.map fun slot => slot.2.tree).Nodup := by
  have hlive : ∀ done beam mid, Reached oracle settings state world done beam mid →
      ((beam.filter (·.isLive)).map (·.tree)).Nodup :=
    fun done beam mid reached => nodup_live (reached.treesDiffer once)
  refine ⟨hlive, fun outcome world' hrun => ?_⟩
  have hnodup := hlive _ _ _ (reached_of_run hrun)
  have hfinished := (outcome.finished_perm.map (·.tree)).nodup_iff.mpr
    ((outcome.finished_sublist.map (·.tree)).nodup hnodup)
  rwa [List.map_map] at hfinished

theorem live_trees_nodup_sample : sampleOracle.ListsOnce 2 ∧
    Reached sampleOracle ⟨2, 5⟩ 0 () 2 (sampleBeam 2) () ∧
    (((sampleBeam 2).filter (·.isLive)).map (·.tree)).Nodup :=
  ⟨listsOnce_sampleOracle, reached_sampleBeam_two,
    (live_trees_nodup listsOnce_sampleOracle).1 2 (sampleBeam 2) () reached_sampleBeam_two⟩

end

end Beam
end ProgramSearch

import ProgramSearch.Model.Load
import ProgramSearch.Proofs.Database.Contents
import ProgramSearch.Proofs.Model.TopRows
import ProgramSearch.Proofs.Results

/-!
# What a row of a step depends on

A decoder answers each row of a step from the input of that row alone. The batch size says how many
rows there are and how many continuations of each are listed; with a greater one the same
continuations come first.
-/
namespace ProgramSearch

namespace Row

/-- The first `k` continuations of a row. -/
def take {σ : Type} (k : Nat) (r : Row σ) : Row σ := ⟨r.state, r.scores.take k, r.ids.take k⟩

end Row

namespace Decoder

/-- Fewer entries are the first of more entries, padding included. -/
theorem take_topRow {m n : Nat} (h : m ≤ n) (row : List Float32) :
    (topRow n row).take m = topRow m row := by
  have hbest : ((ranked row).take n).take m = (ranked row).take m := by
    rw [List.take_take, Nat.min_eq_left h]
  have hpadding : min (m - ((ranked row).take n).length) (n - ((ranked row).take n).length) =
      m - ((ranked row).take m).length := by
    rw [List.length_take, List.length_take]
    omega
  change ((ranked row).take n ++ List.replicate (n - ((ranked row).take n).length)
    (Beam.negInfinity, 0)).take m = _
  rw [List.take_append, hbest, List.take_replicate, hpadding]
  rfl

/-! ### Rows -/

/-- What a decoder can make a step for: a symbol that has an embedding, and a state of its size. -/
structure Accepts (d : Decoder) (input : StepInput (List Float32)) : Prop where
  symbol : input.symbol % 0x100000000 < d.embedding.length
  state : input.state.length = d.units

variable (d : Decoder)

/-- The embedding of the symbol of an input. -/
def embedded (input : StepInput (List Float32)) : List Float32 :=
  (d.embedding[input.symbol % 0x100000000]?).getD []

/-- What a decoder answers to one input if `k` continuations are listed. -/
def row (k : Nat) (input : StepInput (List Float32)) : Row (List Float32) :=
  let next := d.nextState input.edge (d.embedded input) input.state
  let listed := topRow k (logShares (d.projection.apply next))
  ⟨next, listed.map (·.1), listed.map (·.2)⟩

theorem take_row {m n : Nat} (h : m ≤ n) (input : StepInput (List Float32)) :
    (d.row n input).take m = d.row m input := by
  simp only [row, Row.take, ← List.map_take, take_topRow h]

theorem length_row (k : Nat) (input : StepInput (List Float32)) :
    (d.row k input).ids.length = k ∧ (d.row k input).scores.length = k := by
  simp only [row, List.length_map, length_topRow, and_self]

/-- The answer that consists of the given rows. -/
def answerOf (rows : List (Row (List Float32))) : StepOutput (List Float32) :=
  ⟨rows.map (·.state), rows.map (·.scores), rows.map (·.ids)⟩

theorem row?_answerOf (rows : List (Row (List Float32))) (i : Nat) :
    (answerOf rows).row? i = rows[i]? := by
  simp only [StepOutput.row?, answerOf, List.getElem?_map]
  cases rows[i]? <;> rfl

variable {d} {inputs : List (StepInput (List Float32))}

theorem checkState_eq_ok_iff {input : StepInput (List Float32)} :
    d.checkState input = .ok () ↔ input.state.length = d.units := by
  rw [checkState]
  split <;> simp_all

theorem embed_eq_ok_iff {input : StepInput (List Float32)} {x : List Float32} :
    d.embed input.symbol = .ok x ↔
      input.symbol % 0x100000000 < d.embedding.length ∧ x = d.embedded input := by
  rw [embed, embedded]
  split
  · next row hrow =>
    obtain ⟨hlt, -⟩ := List.getElem?_eq_some_iff.mp hrow
    rw [hrow, Option.getD_some, Except.ok.injEq, and_iff_right hlt, eq_comm]
  · next hrow =>
    simp [List.getElem?_eq_none_iff.mp hrow]

theorem forM_checkState_eq_ok_iff :
    inputs.forM d.checkState = .ok () ↔ ∀ input ∈ inputs, input.state.length = d.units := by
  induction inputs with
  | nil => exact ⟨fun _ _ h => absurd h List.not_mem_nil, fun _ => rfl⟩
  | cons input inputs ih =>
    rw [List.forM_eq_forM, List.forM_cons, List.forall_mem_cons, ← ih, ← checkState_eq_ok_iff]
    cases d.checkState input with
    | error failure => exact ⟨fun h => by contradiction, fun h => by cases h.1⟩
    | ok => exact ⟨fun h => ⟨rfl, h⟩, And.right⟩

theorem mapM_nextState (haccepts : ∀ input ∈ inputs, d.Accepts input) (k : Nat) :
    (inputs.mapM fun input => do
      let x ← d.embed input.symbol
      return d.nextState input.edge x input.state) =
        .ok ((inputs.map (d.row k)).map (·.state)) := by
  rw [mapM_eq_ok_iff, List.map_map, List.map_map]
  refine List.map_congr_left fun input hinput => ?_
  rw [embed_eq_ok_iff.mpr ⟨(haccepts input hinput).symbol, rfl⟩]
  rfl

theorem topRows_rows (k : Nat) :
    topRows k (((inputs.map (d.row k)).map (·.state)).map fun h =>
      logShares (d.projection.apply h)) =
        ((inputs.map (d.row k)).map (·.scores), (inputs.map (d.row k)).map (·.ids)) := by
  simp [topRows, row, Function.comp_def]

/-- A step succeeds for as many accepted inputs as the batch size says, and then the answer has the
rows of the inputs. -/
theorem step_eq_ok_iff {output : StepOutput (List Float32)} :
    d.step inputs = .ok output ↔ inputs.length = d.batchSize ∧ (∀ input ∈ inputs, d.Accepts input) ∧
      output = answerOf (inputs.map (d.row d.batchSize)) := by
  have hanswer (haccepts : ∀ input ∈ inputs, d.Accepts input)
      (hlength : inputs.length = d.batchSize) :
      d.step inputs = .ok (answerOf (inputs.map (d.row d.batchSize))) := by
    rw [step, if_neg (by simpa using hlength),
      forM_checkState_eq_ok_iff.mpr fun input hinput => (haccepts input hinput).state, ok_bind,
      mapM_nextState haccepts d.batchSize, ok_bind, topRows_rows]
    rfl
  constructor
  · intro h
    have hstep := h
    rw [step] at h
    split at h
    · contradiction
    · next hlength =>
      obtain ⟨⟨⟩, hstates, h⟩ := bind_ok h
      obtain ⟨states, hsymbols, -⟩ := bind_ok h
      have haccepts : ∀ input ∈ inputs, d.Accepts input := by
        intro input hinput
        obtain ⟨state, -, hnext⟩ := exists_of_mapM hsymbols hinput
        obtain ⟨x, hx, -⟩ := bind_ok hnext
        exact ⟨(embed_eq_ok_iff.mp hx).1, forM_checkState_eq_ok_iff.mp hstates input hinput⟩
      have hlength : inputs.length = d.batchSize := by simpa using hlength
      exact ⟨hlength, haccepts, Except.ok.inj (hstep.symm.trans (hanswer haccepts hlength))⟩
  · rintro ⟨hlength, haccepts, rfl⟩
    exact hanswer haccepts hlength

/-! ### Whole batches -/

/-- Values that stand end to end, as rows of one width. -/
def rowsOf (count width : Nat) (values : List Float32) : Matrix :=
  (List.range count).map fun i => (values.drop (i * width)).take width

theorem rowsOf_flatten {width : Nat} {rows : Matrix} (h : ∀ row ∈ rows, row.length = width) :
    rowsOf rows.length width rows.flatten = rows := by
  refine List.ext_getElem (by simp [rowsOf]) fun i hi hrow => ?_
  simp only [rowsOf, List.getElem_map, List.getElem_range]
  exact drop_take_flatten h (List.getElem?_eq_getElem hrow)

/-- The next states of a batch, made for all rows together: the states stand end to end and are cut
into rows again, both cells run on each row, and a mask of ones and zeros mixes what they give. -/
def nextStates (d : Decoder) (inputs : List (StepInput (List Float32))) : Matrix :=
  let xs := inputs.map d.embedded
  let hs := rowsOf inputs.length d.units (inputs.flatMap (·.state))
  let masks := inputs.map fun input => if input.edge == .child then (1 : Float32) else 0
  let cells := (List.zipWith d.child.apply xs hs).zip (List.zipWith d.sibling.apply xs hs)
  List.zipWith (fun mask (cs, ss) =>
    List.zipWith (fun c s => mask * c + (mask * (-1) + 1) * s) cs ss) masks cells

/-- A step on a whole batch at once. -/
def whole (d : Decoder) (inputs : List (StepInput (List Float32))) : StepOutput (List Float32) :=
  let states := d.nextStates inputs
  let (scores, ids) := topRows d.batchSize (states.map fun h => logShares (d.projection.apply h))
  ⟨states, scores, ids⟩

/-- No row of a batch reaches another. -/
theorem nextStates_eq (haccepts : ∀ input ∈ inputs, d.Accepts input) (k : Nat) :
    d.nextStates inputs = (inputs.map (d.row k)).map (·.state) := by
  have hstates : rowsOf inputs.length d.units (inputs.flatMap (·.state)) =
      inputs.map (·.state) := by
    have hwidth : ∀ state ∈ inputs.map (·.state), state.length = d.units :=
      List.forall_mem_map.mpr fun input hinput => (haccepts input hinput).state
    simpa [List.flatMap] using rowsOf_flatten hwidth
  simp only [nextStates, hstates, List.zip, List.zipWith_map, List.zipWith_self, List.map_map]
  rfl

theorem step_eq_whole (hlength : inputs.length = d.batchSize)
    (haccepts : ∀ input ∈ inputs, d.Accepts input) : d.step inputs = .ok (d.whole inputs) := by
  refine step_eq_ok_iff.mpr ⟨hlength, haccepts, ?_⟩
  rw [whole, nextStates_eq haccepts d.batchSize, topRows_rows]
  rfl

end Decoder

namespace Model

variable {model small large : Model} {m n : Nat}

theorem decoder_of_withBatchSize (h : model.withBatchSize m = .ok small) :
    small.decoder = { model.decoder with batchSize := m } := by
  rw [withBatchSize] at h
  split at h
  · contradiction
  · rw [← Except.ok.inj h]

/-- A model answers each row by itself. -/
theorem rowWise_oracle (model : Model) :
    model.oracle.RowWise (model.decoder.row model.decoder.batchSize) := by
  intro inputs world output world' hstep i input r hinput answered
  have hdecoder : model.decoder.step inputs = .ok output := by
    change (answer (model.decoder.step inputs)).ask world = _ at hstep
    cases hresult : model.decoder.step inputs with
    | error failure =>
      rw [hresult] at hstep
      cases hstep
    | ok output' =>
      rw [hresult] at hstep
      cases hstep
      rfl
  obtain ⟨-, -, rfl⟩ := Decoder.step_eq_ok_iff.mp hdecoder
  rw [Decoder.row?_answerOf, List.getElem?_map, hinput] at answered
  exact (Option.some.inj answered).symm

/-- The step of a model for a batch of any size, row by row and on the whole batch at once. -/
theorem step_of_withBatchSize {k : Nat} {sized : Model} (h : model.withBatchSize k = .ok sized)
    {inputs : List (StepInput (List Float32))} (hlength : inputs.length = k)
    (haccepts : ∀ input ∈ inputs, model.decoder.Accepts input) :
    sized.decoder.step inputs = .ok (Decoder.answerOf (inputs.map (model.decoder.row k))) ∧
      Decoder.answerOf (inputs.map (model.decoder.row k)) = sized.decoder.whole inputs := by
  rw [decoder_of_withBatchSize h]
  have haccepts : ∀ input ∈ inputs, Decoder.Accepts { model.decoder with batchSize := k } input :=
    fun input hinput => ⟨(haccepts input hinput).symbol, (haccepts input hinput).state⟩
  have hrows := Decoder.step_eq_ok_iff.mpr ⟨hlength, haccepts, rfl⟩
  have hwhole := Decoder.step_eq_whole hlength haccepts
  exact ⟨hrows, Except.ok.inj (hrows.symm.trans hwhole)⟩

/-- A model answers each row by itself, and it makes a step for any batch of accepted inputs. What it
makes for the whole batch at once has a row for each input, with as many continuations as the batch
has rows. The same input leads to the same state in a small and in a large batch, wherever it stands
there, and in the small batch to the first of the continuations that the large batch lists. -/
theorem step_of_batch_sizes (hm : model.withBatchSize m = .ok small)
    (hn : model.withBatchSize n = .ok large) (hle : m ≤ n)
    {xs ys : List (StepInput (List Float32))} (hxs : xs.length = m) (hys : ys.length = n)
    (haccepts : ∀ input ∈ xs ++ ys, model.decoder.Accepts input) :
    model.oracle.RowWise (model.decoder.row model.decoder.batchSize) ∧
    ∃ p q, small.decoder.step xs = .ok p ∧ large.decoder.step ys = .ok q ∧
      p = small.decoder.whole xs ∧ q = large.decoder.whole ys ∧
      ∀ (i j : Nat) input, xs[i]? = some input → ys[j]? = some input →
        ∃ r r', p.row? i = some r ∧ q.row? j = some r' ∧ r.state = r'.state ∧
          r.ids = r'.ids.take m ∧ r.scores = r'.scores.take m ∧
          r.ids.length = m ∧ r.scores.length = m ∧ r'.ids.length = n ∧ r'.scores.length = n := by
  obtain ⟨hp, hp'⟩ := step_of_withBatchSize hm hxs fun input hinput =>
    haccepts input (List.mem_append_left ys hinput)
  obtain ⟨hq, hq'⟩ := step_of_withBatchSize hn hys fun input hinput =>
    haccepts input (List.mem_append_right xs hinput)
  refine ⟨rowWise_oracle model, _, _, hp, hq, hp', hq', fun i j input hx hy => ?_⟩
  have htake := model.decoder.take_row hle input
  obtain ⟨hids, hscores⟩ := model.decoder.length_row m input
  obtain ⟨hids', hscores'⟩ := model.decoder.length_row n input
  refine ⟨model.decoder.row m input, model.decoder.row n input, ?_, ?_, rfl, ?_, ?_, hids, hscores,
    hids', hscores'⟩
  · rw [Decoder.row?_answerOf, List.getElem?_map, hx, Option.map_some]
  · rw [Decoder.row?_answerOf, List.getElem?_map, hy, Option.map_some]
  · exact (congrArg Row.ids htake).symm
  · exact (congrArg Row.scores htake).symm

/-- A model of one unit with two symbols. -/
def tiny : Model :=
  { (default : Model) with
    decoder :=
      { lift := ⟨[[1]], [0]⟩
        embedding := [[1], [-1]]
        child := ⟨⟨[[1], [0], [2]], [0, 0, 0]⟩, ⟨[[1], [1], [1]], [0, 1, 0]⟩⟩
        sibling := ⟨⟨[[2], [1], [0]], [0, 0, 1]⟩, ⟨[[1], [-1], [1]], [0, 0, 0]⟩⟩
        projection := ⟨[[1], [-2]], [0, 0.5]⟩
        units := 1
        batchSize := 1 } }

/-- One input alone, and behind another one in a batch of two. -/
theorem step_of_batch_sizes_tiny :
    let x : StepInput (List Float32) := ⟨1, .child, [0.5]⟩
    let y : StepInput (List Float32) := ⟨0, .sibling, [-1]⟩
    (∀ input ∈ [x] ++ [y, x], tiny.decoder.Accepts input) ∧
      tiny.oracle.RowWise (tiny.decoder.row 1) ∧
      ∃ small large p q, tiny.withBatchSize 1 = .ok small ∧ tiny.withBatchSize 2 = .ok large ∧
        small.decoder.step [x] = .ok p ∧ large.decoder.step [y, x] = .ok q ∧
        p = small.decoder.whole [x] ∧ q = large.decoder.whole [y, x] ∧
        ∃ r r', p.row? 0 = some r ∧ q.row? 1 = some r' ∧ r.state = r'.state ∧
          r.ids = r'.ids.take 1 ∧ r.scores = r'.scores.take 1 ∧
          r.ids.length = 1 ∧ r.scores.length = 1 ∧ r'.ids.length = 2 ∧ r'.scores.length = 2 := by
  intro x y
  have haccepts : ∀ input ∈ [x] ++ [y, x], tiny.decoder.Accepts input := by
    rintro input hinput
    simp only [List.cons_append, List.nil_append, List.mem_cons, List.not_mem_nil, or_false]
      at hinput
    rcases hinput with rfl | rfl | rfl <;> exact ⟨by decide, rfl⟩
  have hsmall : tiny.withBatchSize 1 = .ok _ := rfl
  have hlarge : tiny.withBatchSize 2 = .ok _ := rfl
  obtain ⟨hrow, p, q, hp, hq, hp', hq', hrows⟩ :=
    step_of_batch_sizes hsmall hlarge (by decide) rfl rfl haccepts
  exact ⟨haccepts, hrow, _, _, p, q, rfl, rfl, hp, hq, hp', hq', hrows 0 1 x rfl rfl⟩

end Model
end ProgramSearch

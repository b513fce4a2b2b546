import Mathlib.Data.List.Basic
import ProgramSearch.Corpus.Discovery

/-!
# Windows of a walk

The files of a location are sorted, so it does not matter in which order a walk comes upon them. A
window takes the files whose numbers, counted from 1, lie in it. Of two windows the second of which
begins where the first ends, both together take what one window over both takes.
-/
namespace ProgramSearch

namespace Window

variable {α : Type}

/-- Whether a number lies in the window. -/
def covers (w : Window) (number : Nat) : Bool :=
  decide (w.first ≤ number) && w.last.all fun last => decide (number ≤ last)

/-- The files whose numbers, counted from 1, lie in the window. -/
def chosen (w : Window) (files : List α) : List α :=
  ((files.zipIdx 1).filter fun file => w.covers file.2).map Prod.fst

theorem filter_zipIdx_lt (files : List α) (n k : Nat) :
    (files.zipIdx k).filter (fun file => decide (file.2 < k + n)) = (files.take n).zipIdx k := by
  induction files generalizing n k with
  | nil => rw [List.take_nil]; rfl
  | cons file files ih =>
    cases n with
    | zero =>
      refine List.filter_eq_nil_iff.mpr fun file hfile => ?_
      have hle := (List.mem_zipIdx hfile).1
      simpa using hle
    | succ n =>
      rw [List.zipIdx_cons, List.filter_cons_of_pos (by simp), List.take_succ_cons,
        List.zipIdx_cons, Nat.add_comm n, ← Nat.add_assoc, ih]

theorem filter_zipIdx_ge (files : List α) (n k : Nat) :
    (files.zipIdx k).filter (fun file => decide (k + n ≤ file.2)) =
      (files.drop n).zipIdx (k + n) := by
  induction files generalizing n k with
  | nil => rw [List.drop_nil]; rfl
  | cons file files ih =>
    cases n with
    | zero =>
      refine List.filter_eq_self.mpr fun file hfile => ?_
      have hle := (List.mem_zipIdx hfile).1
      simpa using hle
    | succ n =>
      rw [List.zipIdx_cons, List.filter_cons_of_neg (by simp), List.drop_succ_cons, Nat.add_comm n,
        ← Nat.add_assoc, ih]

theorem cut_eq_chosen (w : Window) (files : List α) : w.cut files = w.chosen files := by
  have hcovers : ∀ file ∈ files.zipIdx 1, w.covers file.2 =
      (decide (1 + (w.first - 1) ≤ file.2) &&
        decide (file.2 < 1 + w.last.getD files.length)) := by
    intro file hfile
    obtain ⟨hfirst, hlast, -⟩ := List.mem_zipIdx hfile
    rw [covers, Bool.eq_iff_iff]
    cases w.last with
    | none => simp; omega
    | some last => simp; omega
  rw [chosen, List.filter_congr hcovers, ← List.filter_filter, filter_zipIdx_lt, filter_zipIdx_ge,
    List.zipIdx_map_fst, cut]

/-- Windows join where the second begins behind the end of the first. -/
theorem chosen_append {first last last' : Nat} (h : first ≤ last + 1) (h' : last ≤ last')
    (files : List α) :
    chosen ⟨first, some last⟩ files ++ chosen ⟨last + 1, some last'⟩ files =
      chosen ⟨first, some last'⟩ files := by
  rw [← cut_eq_chosen, ← cut_eq_chosen, ← cut_eq_chosen]
  simp only [cut, Option.getD_some, Nat.add_sub_cancel]
  have hsplit := List.take_append_drop last (files.take last')
  rw [List.take_take, Nat.min_eq_left h'] at hsplit
  conv_rhs => rw [← hsplit, List.drop_append]
  -- A corpus that ends within the first window leaves nothing to the second one.
  rcases Nat.le_total files.length last with hshort | hlong
  · rw [List.drop_of_length_le (i := last), List.drop_nil]
    rw [List.length_take]
    omega
  · have hstart : first - 1 ≤ last := by omega
    rw [List.length_take, Nat.min_eq_left hlong, Nat.sub_eq_zero_of_le hstart, List.drop_zero]

end Window

namespace Corpus

/-! ### The order of paths -/

theorem pathBefore_cons {a b : String} {p q : Path} :
    pathBefore (a :: p) (b :: q) = true ↔ a < b ∨ a = b ∧ pathBefore p q = true := by
  rw [pathBefore]
  split
  · next heq =>
    obtain rfl : a = b := by simpa using heq
    exact ⟨fun h => .inr ⟨rfl, h⟩,
      fun h => h.elim (fun hlt => absurd hlt (String.lt_irrefl a)) And.right⟩
  · next hne =>
    have hne : a ≠ b := by simpa using hne
    simp [hne]

theorem pathBefore_total (p q : Path) : (pathBefore p q || pathBefore q p) = true := by
  induction p generalizing q with
  | nil => rfl
  | cons a p ih =>
    cases q with
    | nil => rfl
    | cons b q =>
      rw [Bool.or_eq_true, pathBefore_cons, pathBefore_cons]
      by_cases hab : a < b
      · exact .inl (.inl hab)
      · by_cases hba : b < a
        · exact .inr (.inl hba)
        · obtain rfl := String.le_antisymm (String.not_lt.mp hba) (String.not_lt.mp hab)
          exact (Bool.or_eq_true _ _ ▸ ih q).imp (fun h => .inr ⟨rfl, h⟩) fun h => .inr ⟨rfl, h⟩

theorem pathBefore_trans (p q r : Path) (hpq : pathBefore p q = true)
    (hqr : pathBefore q r = true) : pathBefore p r = true := by
  induction p generalizing q r with
  | nil => rfl
  | cons a p ih =>
    cases q with
    | nil => contradiction
    | cons b q =>
      cases r with
      | nil => contradiction
      | cons c r =>
        rw [pathBefore_cons] at *
        rcases hpq with hab | ⟨rfl, hpq⟩
        · rcases hqr with hbc | ⟨rfl, -⟩
          · exact .inl (String.lt_trans hab hbc)
          · exact .inl hab
        · exact hqr.imp_right fun hqr => ⟨hqr.1, ih _ _ hpq hqr.2⟩

theorem pathBefore_antisymm {p q : Path} (hpq : pathBefore p q = true)
    (hqp : pathBefore q p = true) : p = q := by
  induction p generalizing q with
  | nil =>
    cases q with
    | nil => rfl
    | cons => contradiction
  | cons a p ih =>
    cases q with
    | nil => contradiction
    | cons b q =>
      rw [pathBefore_cons] at hpq hqp
      rcases hpq with hab | ⟨rfl, hpq⟩
      · rcases hqp with hba | ⟨rfl, -⟩
        · exact absurd (String.lt_trans hab hba) (String.lt_irrefl a)
        · exact absurd hab (String.lt_irrefl b)
      · rcases hqp with haa | ⟨-, hqp⟩
        · exact absurd haa (String.lt_irrefl a)
        · rw [ih hpq hqp]

theorem pairwise_mergeSort_pathBefore (paths : List Path) :
    (paths.mergeSort pathBefore).Pairwise fun p q => pathBefore p q = true :=
  List.pairwise_mergeSort pathBefore_trans pathBefore_total paths

/-! ### Walks -/

/-- The files that a walk reaches below a directory, relative to it, in no particular order. -/
def filesBelow (t : FileTree) (root : Path) : List Path :=
  t.nodes.filterMap fun (path, node) =>
    match node with
    | .file _ =>
      if root.isPrefixOf path && root.length < path.length && isReached t root path then
        some (path.drop root.length)
      else none
    | .directory => none

theorem walk_eq (t : FileTree) (root : Path) :
    walk t root = (filesBelow t root).mergeSort pathBefore := rfl

/-- The corpus files among them. -/
def reachedFiles (t : FileTree) (root : Path) : List Path :=
  (filesBelow t root).filter fun below => isCorpusFile ("/".intercalate below)

/-- The corpus files of a location in sorted order. A walk of a directory may come upon them in any
order. -/
inductive Finds (t : FileTree) (location : String) : List String → Prop
  | file {bytes : List UInt8} (alone : t.find? location = some (.file bytes)) :
    Finds t location (if isCorpusFile location then [location] else [])
  | walk {found : List Path} (directory : t.find? location = some .directory)
    (reached : found.Perm (reachedFiles t ((Path.ofString? location).getD []))) :
    Finds t location ((found.mergeSort pathBefore).map (join location))

/-- The files of a location do not depend on the order of a walk. -/
theorem Finds.filesAt {t : FileTree} {location : String} {files : List String}
    (h : Finds t location files) : filesAt t location = .ok files := by
  cases h with
  | file alone => rw [Corpus.filesAt, alone]
  | @walk found directory reached =>
    simp only [Corpus.filesAt, directory, walk_eq]
    have hperm := ((List.mergeSort_perm _ pathBefore).filter _).trans
      (reached.symm.trans (List.mergeSort_perm found pathBefore).symm)
    have hsame := hperm.eq_of_pairwise (fun _ _ _ _ => pathBefore_antisymm)
      ((pairwise_mergeSort_pathBefore _).filter _) (pairwise_mergeSort_pathBefore found)
    exact congrArg (fun paths => Except.ok (paths.map (join location))) hsame

theorem finds_iff {t : FileTree} {location : String} {files : List String} :
    Finds t location files ↔ filesAt t location = .ok files := by
  refine ⟨Finds.filesAt, fun h => ?_⟩
  cases hnode : t.find? location with
  | none => simp [filesAt, hnode] at h
  | some node =>
    obtain ⟨others, hothers⟩ : ∃ others, Finds t location others := by
      cases node with
      | file bytes => exact ⟨_, .file hnode⟩
      | directory => exact ⟨_, .walk hnode (.refl _)⟩
    rwa [← Except.ok.inj (hothers.filesAt.symm.trans h)]

end Corpus
end ProgramSearch

/-!
# Priority queues

A queue is the list of its elements in no particular order. Taking an element out yields one that
comes before all others in the order of the queue.
-/
namespace ProgramSearch.Queue

variable {α : Type}

/-- Takes the first element in the order `le` out of the queue `a :: rest`, and returns it with
the others. -/
def pop (le : α → α → Bool) (a : α) : List α → α × List α
  | [] => (a, [])
  | b :: rest =>
    if le a b then
      let taken := pop le a rest
      (taken.1, b :: taken.2)
    else
      let taken := pop le b rest
      (taken.1, a :: taken.2)

theorem pop_perm (le : α → α → Bool) (a : α) (rest : List α) :
    ((pop le a rest).1 :: (pop le a rest).2).Perm (a :: rest) := by
  induction rest generalizing a with
  | nil => exact List.Perm.refl _
  | cons b rest ih =>
    by_cases h : le a b
    · simp only [pop, h, if_true]
      exact (List.Perm.swap b _ _).trans (((ih a).cons b).trans (List.Perm.swap a b rest))
    · simp only [pop, h]
      exact (List.Perm.swap a _ _).trans ((ih b).cons a)

theorem pop_le (le : α → α → Bool) (trans : ∀ a b c, le a b → le b c → le a c)
    (total : ∀ a b, le a b || le b a) (a : α) (rest : List α) :
    ∀ b ∈ a :: rest, le (pop le a rest).1 b := by
  have refl (x : α) : le x x := by simpa using total x x
  induction rest generalizing a with
  | nil => simpa [pop] using refl a
  | cons b rest ih =>
    by_cases h : le a b
    · simp only [pop, h, if_true]
      intro x hx
      rcases List.mem_cons.mp hx with rfl | hx
      · exact ih x x (List.mem_cons_self ..)
      · rcases List.mem_cons.mp hx with rfl | hx
        · exact trans _ _ _ (ih a a (List.mem_cons_self ..)) h
        · exact ih a x (List.mem_cons_of_mem _ hx)
    · have hba : le b a := by simpa [h] using total a b
      simp only [pop, h]
      intro x hx
      rcases List.mem_cons.mp hx with rfl | hx
      · exact trans _ _ _ (ih b b (List.mem_cons_self ..)) hba
      · exact ih b x hx

end ProgramSearch.Queue

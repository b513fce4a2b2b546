import ProgramSearch.Proofs.Json.Contents
import ProgramSearch.Proofs.Json.Steps

/-!
# Values that are not read to their end

Where reading stops inside a value, the document is marked as damaged, and has no content.
-/
namespace ProgramSearch.Json

open Byte

theorem ending_of_damaged {α : Type} {a b : α} {damage : Damage} {ending : Option Damage}
    {onward : Onward} (h : (a, some damage, onward) = (b, ending, none)) : ending ≠ none := by
  cases h
  nofun

/-- An array that reading did not get to the end of is marked as damaged. -/
theorem ending_of_items_stopped (fuel : Nat) :
    (∀ {first s items ending}, readItems fuel first s = (items, ending, none) → ending ≠ none) ∧
      ∀ {s items ending}, readItem fuel s = (items, ending, none) → ending ≠ none := by
  induction fuel with
  | zero => exact ⟨ending_of_damaged, ending_of_damaged⟩
  | succ fuel ih =>
    constructor
    · intro first s items ending h
      rw [← List.append_nil s] at h
      cases itemsStep first s with
      | stop damage hstop =>
        rw [hstop fuel [] rfl] at h
        exact ending_of_damaged h
      | close rest _ hrest =>
        rw [hrest] at h
        cases h
      | item rest _ hrest =>
        rw [hrest] at h
        exact ih.2 h
    · intro s items ending h
      rw [readItem] at h
      split at h
      · exact ending_of_damaged h
      · rename_i item left hitem
        rcases hitems : readItems fuel false left with ⟨others, ending, onward⟩
        simp only [hitems] at h
        cases h
        exact ih.1 hitems

/-- So is an object. -/
theorem ending_of_members_stopped (fuel : Nat) :
    (∀ {first s members ending},
      readMembers fuel first s = (members, ending, none) → ending ≠ none) ∧
      ∀ {s members ending}, readMember fuel s = (members, ending, none) → ending ≠ none := by
  induction fuel with
  | zero => exact ⟨ending_of_damaged, ending_of_damaged⟩
  | succ fuel ih =>
    constructor
    · intro first s members ending h
      rw [← List.append_nil s] at h
      cases membersStep first s with
      | stop damage hstop =>
        rw [hstop fuel [] rfl] at h
        exact ending_of_damaged h
      | close rest _ hrest =>
        rw [hrest] at h
        cases h
      | member rest _ hrest =>
        rw [hrest] at h
        exact ih.2 h
    · intro s members ending h
      rw [readMember] at h
      split at h
      · exact ending_of_damaged h
      · split at h
        · exact ending_of_damaged h
        · split at h
          · exact ending_of_damaged h
          · rename_i left hvalue
            rcases hmembers : readMembers fuel false left with ⟨others, ending, onward⟩
            simp only [hmembers] at h
            cases h
            exact ih.1 hmembers
        · exact ending_of_damaged h

section Content

variable {d : Doc} (room : Nat) (v : Value)

theorem content_broken (damage : Damage) : (Doc.broken damage).content room ≠ .ok v := by
  intro h
  rw [Doc.content] at h
  contradiction

theorem content_ofText_of_stopped {read : Except Damage (Except Fault String × Bytes)}
    (h : Doc.ofText read = (d, none)) : d.content room ≠ .ok v := by
  cases read <;> cases h
  exact content_broken room v _

theorem content_ofWord_of_stopped {word : Doc} {read : Except Fault Bytes}
    (h : Doc.ofWord word read = (d, none)) : d.content room ≠ .ok v := by
  cases read <;> cases h
  exact content_broken room v _

theorem content_ofNumeral_of_stopped {read : Except Fault (Numeral × Bytes)}
    (h : Doc.ofNumeral read = (d, none)) : d.content room ≠ .ok v := by
  cases read <;> cases h
  exact content_broken room v _

/-- A value that reading did not get to the end of has no content. -/
theorem content_of_stopped {fuel : Nat} {s : Bytes} (h : readValue fuel s = (d, none)) :
    d.content room ≠ .ok v := by
  cases fuel with
  | zero =>
    cases h
    exact content_broken room v _
  | succ fuel =>
    rw [← List.append_nil s] at h
    cases valueStep s with
    | stop damage hstop =>
      rw [hstop fuel [] rfl] at h
      cases h
      exact content_broken room v _
    | array rest _ hrest =>
      rcases hitems : readItems fuel true (rest ++ []) with ⟨items, ending, onward⟩
      rw [hrest, hitems] at h
      cases h
      exact fun h => (ending_of_items_stopped fuel).1 hitems (content_array_ok h).1
    | object rest _ hrest =>
      rcases hmembers : readMembers fuel true (rest ++ []) with ⟨members, ending, onward⟩
      rw [hrest, hmembers] at h
      cases h
      exact fun h => (ending_of_members_stopped fuel).1 hmembers (content_object_ok h).1
    | text rest _ hrest =>
      rw [hrest] at h
      exact content_ofText_of_stopped room v h
    | word e word rest _ _ hrest =>
      rw [hrest] at h
      exact content_ofWord_of_stopped room v h
    | numeral negative rest _ hrest =>
      rw [hrest] at h
      exact content_ofNumeral_of_stopped room v h

end Content

end ProgramSearch.Json

import ProgramSearch.Proofs.Json.Steps

/-!
# What follows a value

A value that was read to its end is read in the same way when more bytes follow, unless it is a
numeral at the end of the text which they would continue, and when there is more fuel.
-/
namespace ProgramSearch.Json

open Byte

section Values

def Doc.isNumber : Doc → Bool
  | .number _ => true
  | _ => false

/-- Whether `tail` leaves a value alone behind which `rest` is left: only a numeral that ends where
the text does could go on. -/
def Closed (tail rest : Bytes) (d : Doc) : Prop := d.isNumber = true → rest = [] → Ends tail

theorem Closed.of_ends {tail rest : Bytes} {d : Doc} (ends : Ends tail) : Closed tail rest d :=
  fun _ _ => ends

theorem Closed.of_ne_nil {tail rest : Bytes} {d : Doc} (h : rest ≠ []) : Closed tail rest d :=
  fun _ hnil => absurd hnil h

/-- What was read to its end with the given fuel is read alike with more fuel and with `tail`
behind it. -/
structure Undisturbed (tail : Bytes) (more fuel : Nat) : Prop where
  value : ∀ {s d rest}, readValue fuel s = (d, some rest) → Closed tail rest d →
    readValue (fuel + more) (s ++ tail) = (d, some (rest ++ tail))
  items : ∀ {first s items ending rest}, readItems fuel first s = (items, ending, some rest) →
    readItems (fuel + more) first (s ++ tail) = (items, ending, some (rest ++ tail))
  item : ∀ {s items ending rest}, readItem fuel s = (items, ending, some rest) →
    readItem (fuel + more) (s ++ tail) = (items, ending, some (rest ++ tail))
  members : ∀ {first s members ending rest},
    readMembers fuel first s = (members, ending, some rest) →
    readMembers (fuel + more) first (s ++ tail) = (members, ending, some (rest ++ tail))
  member : ∀ {s members ending rest}, readMember fuel s = (members, ending, some rest) →
    readMember (fuel + more) (s ++ tail) = (members, ending, some (rest ++ tail))

variable {tail : Bytes} {more fuel : Nat} {s rest : Bytes}

theorem ofText_append {d : Doc} {collected : Bytes} {soft : Option Fault}
    (h : Doc.ofText (readString fuel collected soft s) = (d, some rest)) :
    Doc.ofText (readString (fuel + more) collected soft (s ++ tail)) =
      (d, some (rest ++ tail)) := by
  obtain ⟨text, htext, rfl⟩ := exists_of_ofText h
  rw [readString_append htext]
  rfl

theorem ofWord_append {d e : Doc} {word : Bytes}
    (h : Doc.ofWord e (readWord word s) = (d, some rest)) :
    Doc.ofWord e (readWord word (s ++ tail)) = (d, some (rest ++ tail)) := by
  obtain ⟨hword, rfl⟩ := eq_of_ofWord h
  rw [readWord_append hword]
  rfl

theorem ofNumeral_append {d : Doc} {negative : Bool}
    (h : Doc.ofNumeral (readNumeral negative s) = (d, some rest)) (closed : Closed tail rest d) :
    Doc.ofNumeral (readNumeral negative (s ++ tail)) = (d, some (rest ++ tail)) := by
  obtain ⟨n, hnumeral, rfl⟩ := exists_of_ofNumeral h
  rw [readNumeral_append hnumeral (closed rfl)]
  rfl

theorem ofItems_append (ih : Undisturbed tail more fuel) {first : Bool} {d : Doc}
    (h : Doc.ofItems (readItems fuel first s) = (d, some rest)) :
    Doc.ofItems (readItems (fuel + more) first (s ++ tail)) = (d, some (rest ++ tail)) := by
  rcases hitems : readItems fuel first s with ⟨items, ending, onward⟩
  rw [hitems] at h
  cases h
  rw [ih.items hitems]
  rfl

theorem ofMembers_append (ih : Undisturbed tail more fuel) {first : Bool} {d : Doc}
    (h : Doc.ofMembers (readMembers fuel first s) = (d, some rest)) :
    Doc.ofMembers (readMembers (fuel + more) first (s ++ tail)) = (d, some (rest ++ tail)) := by
  rcases hmembers : readMembers fuel first s with ⟨members, ending, onward⟩
  rw [hmembers] at h
  cases h
  rw [ih.members hmembers]
  rfl

theorem readValue_append_step (ih : Undisturbed tail more fuel) {d : Doc}
    (h : readValue (fuel + 1) s = (d, some rest)) (closed : Closed tail rest d) :
    readValue (fuel + more + 1) (s ++ tail) = (d, some (rest ++ tail)) := by
  rw [← List.append_nil s] at h
  cases valueStep s with
  | stop damage hstop =>
    rw [hstop fuel [] rfl] at h
    cases h
  | array left _ hleft =>
    rw [hleft, List.append_nil] at h
    rw [hleft]
    exact ofItems_append ih h
  | object left _ hleft =>
    rw [hleft, List.append_nil] at h
    rw [hleft]
    exact ofMembers_append ih h
  | text left _ hleft =>
    rw [hleft, List.append_nil] at h
    rw [hleft]
    exact ofText_append h
  | word e word left _ _ hleft =>
    rw [hleft, List.append_nil] at h
    rw [hleft]
    exact ofWord_append h
  | numeral negative left _ hleft =>
    rw [hleft, List.append_nil] at h
    rw [hleft]
    exact ofNumeral_append h closed

/-- Behind an element that ends with the text no array is closed. -/
theorem ne_nil_of_readItems {first : Bool} {items : List Doc} {ending : Option Damage}
    (h : readItems fuel first s = (items, ending, some rest)) : s ≠ [] := by
  rintro rfl
  rw [readItems_nil] at h
  cases h

theorem ne_nil_of_readMembers {first : Bool} {members : List (Except Fault String × Doc)}
    {ending : Option Damage} (h : readMembers fuel first s = (members, ending, some rest)) :
    s ≠ [] := by
  rintro rfl
  rw [readMembers_nil] at h
  cases h

theorem readItem_append_step (ih : Undisturbed tail more fuel) {items : List Doc}
    {ending : Option Damage} (h : readItem (fuel + 1) s = (items, ending, some rest)) :
    readItem (fuel + more + 1) (s ++ tail) = (items, ending, some (rest ++ tail)) := by
  rw [readItem] at h ⊢
  rcases hitem : readValue fuel s with ⟨item, onward⟩
  rw [hitem] at h
  cases onward with
  | none => cases h
  | some left =>
    rcases hitems : readItems fuel false left with ⟨others, ending, onward⟩
    simp only [hitems] at h
    cases h
    simp only [ih.value hitem (.of_ne_nil (ne_nil_of_readItems hitems)), ih.items hitems]

theorem readMember_append_step (ih : Undisturbed tail more fuel)
    {members : List (Except Fault String × Doc)} {ending : Option Damage}
    (h : readMember (fuel + 1) s = (members, ending, some rest)) :
    readMember (fuel + more + 1) (s ++ tail) = (members, ending, some (rest ++ tail)) := by
  rw [readMember] at h
  split at h
  · cases h
  · rename_i key left hkey
    split at h
    · cases h
    · rename_i s' hs
      rcases hvalue : readValue fuel s' with ⟨v, onward⟩
      rw [hvalue] at h
      cases onward with
      | none => cases h
      | some behind =>
        rcases hmembers : readMembers fuel false behind with ⟨others, ending, onward⟩
        simp only [hmembers] at h
        cases h
        exact readMember_value (readString_append hkey more tail) (skipBlank_append hs tail)
          (ih.value hvalue (.of_ne_nil (ne_nil_of_readMembers hmembers))) (ih.members hmembers)
    · cases h

theorem readItems_append_step (ih : Undisturbed tail more fuel) {first : Bool} {items : List Doc}
    {ending : Option Damage} (h : readItems (fuel + 1) first s = (items, ending, some rest)) :
    readItems (fuel + more + 1) first (s ++ tail) = (items, ending, some (rest ++ tail)) := by
  rw [← List.append_nil s] at h
  cases itemsStep first s with
  | stop damage hstop =>
    rw [hstop fuel [] rfl] at h
    cases h
  | close left _ hleft =>
    rw [hleft, List.append_nil] at h
    cases h
    exact hleft _ tail
  | item left _ hleft =>
    rw [hleft, List.append_nil] at h
    rw [hleft]
    exact ih.item h

theorem readMembers_append_step (ih : Undisturbed tail more fuel) {first : Bool}
    {members : List (Except Fault String × Doc)} {ending : Option Damage}
    (h : readMembers (fuel + 1) first s = (members, ending, some rest)) :
    readMembers (fuel + more + 1) first (s ++ tail) = (members, ending, some (rest ++ tail)) := by
  rw [← List.append_nil s] at h
  cases membersStep first s with
  | stop damage hstop =>
    rw [hstop fuel [] rfl] at h
    cases h
  | close left _ hleft =>
    rw [hleft, List.append_nil] at h
    cases h
    exact hleft _ tail
  | member left _ hleft =>
    rw [hleft, List.append_nil] at h
    rw [hleft]
    exact ih.member h

theorem undisturbed (tail : Bytes) (more fuel : Nat) : Undisturbed tail more fuel := by
  -- All five readers spend one unit on each call of another, so one induction serves them together.
  induction fuel with
  | zero => constructor <;> nofun
  | succ fuel ih =>
    have hfuel : fuel + 1 + more = fuel + more + 1 := Nat.succ_add fuel more
    constructor <;> rw [hfuel]
    · exact readValue_append_step ih
    · exact readItems_append_step ih
    · exact readItem_append_step ih
    · exact readMembers_append_step ih
    · exact readMember_append_step ih

end Values

end ProgramSearch.Json

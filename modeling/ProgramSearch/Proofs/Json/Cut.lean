import Mathlib.Tactic.NthRewrite
import ProgramSearch.Proofs.Json.Reading

/-!
# Texts that are cut short

What is read of the beginning of a text is what is read there of the whole text. Only the value in
which the text was cut may come out differently, and nothing follows it.
-/
namespace ProgramSearch.Json

open Byte

/-- How what is read of a text that was cut relates to what is read of the whole text. A numeral may
go on behind the cut, and all else that was not finished is marked as damaged. -/
inductive Doc.Begins : Doc → Doc → Prop where
  | refl (d : Doc) : Begins d d
  | broken (damage : Damage) (d : Doc) : Begins (.broken damage) d
  | number (n : Numeral) (d : Doc) : Begins (.number n) d
  | array (items others : List Doc) (damage : Damage) (ending : Option Damage) :
      Begins (.array items (some damage)) (.array (items ++ others) ending)
  | element {d d' : Doc} (h : Begins d d') (items others : List Doc) (damage : Damage)
      (ending : Option Damage) :
      Begins (.array (items ++ [d]) (some damage)) (.array (items ++ d' :: others) ending)
  | object (members others : List (Except Fault String × Doc)) (damage : Damage)
      (ending : Option Damage) :
      Begins (.object members (some damage)) (.object (members ++ others) ending)
  | member {d d' : Doc} (h : Begins d d') (key : Except Fault String)
      (members others : List (Except Fault String × Doc)) (damage : Damage)
      (ending : Option Damage) :
      Begins (.object (members ++ [(key, d)]) (some damage))
        (.object (members ++ (key, d') :: others) ending)

namespace Doc.Begins

variable {items items' : List Doc} {members members' : List (Except Fault String × Doc)}
variable {ending ending' : Option Damage}

theorem cons_item (h : Begins (.array items ending) (.array items' ending')) (d : Doc) :
    Begins (.array (d :: items) ending) (.array (d :: items') ending') := by
  cases h with
  | refl => exact .refl _
  | array _ others damage => exact .array (d :: items) others damage ending'
  | element h items others damage => exact .element h (d :: items) others damage ending'

theorem cons_member (h : Begins (.object members ending) (.object members' ending'))
    (key : Except Fault String) (d : Doc) :
    Begins (.object ((key, d) :: members) ending) (.object ((key, d) :: members') ending') := by
  cases h with
  | refl => exact .refl _
  | object _ others damage => exact .object ((key, d) :: members) others damage ending'
  | member h key' members others damage =>
    exact .member h key' ((key, d) :: members) others damage ending'

/-- An array that was cut before its first element. -/
theorem no_items (damage : Damage) (read : List Doc × Option Damage × Onward) :
    Begins (.array [] (some damage)) (Doc.ofItems read).1 :=
  .array [] read.1 damage read.2.1

/-- An object that was cut before the key of its first member was read. -/
theorem no_members (damage : Damage)
    (read : List (Except Fault String × Doc) × Option Damage × Onward) :
    Begins (.object [] (some damage)) (Doc.ofMembers read).1 :=
  .object [] read.1 damage read.2.1

theorem ofNumeral (read : Except Fault (Numeral × Bytes)) (d : Doc) :
    Begins (Doc.ofNumeral read).1 d := by
  cases read with
  | error fault => exact .broken _ d
  | ok read => exact .number read.1 d

end Doc.Begins

/-- With each reader, what is read of a text with the given fuel relates so to what is read with
more fuel when `tail` follows the text. -/
structure Cut (tail : Bytes) (more fuel : Nat) : Prop where
  value : ∀ s, (readValue fuel s).1.Begins (readValue (fuel + more) (s ++ tail)).1
  items : ∀ first s, (Doc.ofItems (readItems fuel first s)).1.Begins
    (Doc.ofItems (readItems (fuel + more) first (s ++ tail))).1
  item : ∀ s, (Doc.ofItems (readItem fuel s)).1.Begins
    (Doc.ofItems (readItem (fuel + more) (s ++ tail))).1
  members : ∀ first s, (Doc.ofMembers (readMembers fuel first s)).1.Begins
    (Doc.ofMembers (readMembers (fuel + more) first (s ++ tail))).1
  member : ∀ s, (Doc.ofMembers (readMember fuel s)).1.Begins
    (Doc.ofMembers (readMember (fuel + more) (s ++ tail))).1

section Steps

variable {tail : Bytes} {more fuel : Nat}

theorem begins_ofText (collected : Bytes) (soft : Option Fault) (s : Bytes) :
    (Doc.ofText (readString fuel collected soft s)).1.Begins
      (Doc.ofText (readString (fuel + more) collected soft (s ++ tail))).1 := by
  cases htext : readString fuel collected soft s with
  | error damage => exact .broken damage _
  | ok read =>
    rw [readString_append htext]
    exact .refl _

theorem begins_ofWord (d : Doc) (word s : Bytes) :
    (Doc.ofWord d (readWord word s)).1.Begins (Doc.ofWord d (readWord word (s ++ tail))).1 := by
  cases hword : readWord word s with
  | error fault => exact .broken _ _
  | ok rest =>
    rw [readWord_append hword]
    exact .refl _

theorem Cut.readValue_step (ih : Cut tail more fuel) (s : Bytes) :
    (readValue (fuel + 1) s).1.Begins (readValue (fuel + more + 1) (s ++ tail)).1 := by
  nth_rewrite 1 [← List.append_nil s]
  cases valueStep s with
  | stop damage hstop =>
    rw [hstop fuel [] rfl]
    exact .broken damage _
  | array rest _ hrest =>
    rw [hrest, hrest, List.append_nil]
    exact ih.items true rest
  | object rest _ hrest =>
    rw [hrest, hrest, List.append_nil]
    exact ih.members true rest
  | text rest _ hrest =>
    rw [hrest, hrest, List.append_nil]
    exact begins_ofText [] none rest
  | word d word rest _ _ hrest =>
    rw [hrest, hrest, List.append_nil]
    exact begins_ofWord d word rest
  | numeral negative rest _ hrest =>
    rw [hrest]
    exact .ofNumeral _ _

theorem readItem_eq_cons (fuel : Nat) (s : Bytes) : ∃ items ending onward,
    readItem (fuel + 1) s = ((readValue fuel s).1 :: items, ending, onward) := by
  rw [readItem]
  rcases readValue fuel s with ⟨item, _ | rest⟩
  · exact ⟨_, _, _, rfl⟩
  · exact ⟨_, _, _, rfl⟩

/-- An array that was cut in its first element or at its end. -/
theorem Cut.begins_readItem (ih : Cut tail more fuel) (s : Bytes) (damage : Damage) :
    (Doc.array [(readValue fuel s).1] (some damage)).Begins
      (Doc.ofItems (readItem (fuel + more + 1) (s ++ tail))).1 := by
  obtain ⟨items, ending, onward, hitem⟩ := readItem_eq_cons (fuel + more) (s ++ tail)
  rw [hitem]
  exact .element (ih.value s) [] items damage ending

theorem Cut.readItem_step (ih : Cut tail more fuel) (s : Bytes) :
    (Doc.ofItems (readItem (fuel + 1) s)).1.Begins
      (Doc.ofItems (readItem (fuel + more + 1) (s ++ tail))).1 := by
  have hcut := ih.begins_readItem s Fault.endInArray.damage
  rcases hitem : readValue fuel s with ⟨item, _ | rest⟩
  · rw [hitem] at hcut
    rw [readItem, hitem]
    exact hcut
  · rw [hitem] at hcut
    by_cases hrest : rest = []
    · rw [readItem, hitem]
      dsimp only
      rw [hrest, readItems_nil]
      exact hcut
    · have hmore := (undisturbed tail more fuel).value hitem (.of_ne_nil hrest)
      rw [readItem, readItem, hitem, hmore]
      exact (ih.items false rest).cons_item item

theorem Cut.readItems_step (ih : Cut tail more fuel) (first : Bool) (s : Bytes) :
    (Doc.ofItems (readItems (fuel + 1) first s)).1.Begins
      (Doc.ofItems (readItems (fuel + more + 1) first (s ++ tail))).1 := by
  nth_rewrite 1 [← List.append_nil s]
  cases itemsStep first s with
  | stop damage hstop =>
    rw [hstop fuel [] rfl]
    exact .no_items _ _
  | close rest _ hrest =>
    rw [hrest, hrest]
    exact .refl _
  | item rest _ hrest =>
    rw [hrest, hrest, List.append_nil]
    exact ih.item rest

theorem readMember_eq_cons {s s' : Bytes} {key : Except Fault String}
    (hkey : readString fuel [] none s = .ok (key, s')) : ∃ d members ending onward,
    readMember (fuel + 1) s = ((key, d) :: members, ending, onward) ∧
      ∀ s'', skipBlank s' = colon :: s'' → d = (readValue fuel s'').1 := by
  rw [readMember, hkey]
  dsimp only
  split
  · rename_i hs
    exact ⟨_, _, _, _, rfl, fun s'' hcolon => by simp [hs] at hcolon⟩
  · rename_i s'' hs
    rcases hvalue : readValue fuel s'' with ⟨d, _ | rest⟩
    all_goals
      refine ⟨d, _, _, _, rfl, fun t ht => ?_⟩
      rw [hs] at ht
      obtain rfl := (List.cons.inj ht).2
      rw [hvalue]
  · rename_i hcolon
    exact ⟨_, _, _, _, rfl, fun s'' hs => absurd hs (hcolon s'')⟩

theorem Cut.readMember_step (ih : Cut tail more fuel) (s : Bytes) :
    (Doc.ofMembers (readMember (fuel + 1) s)).1.Begins
      (Doc.ofMembers (readMember (fuel + more + 1) (s ++ tail))).1 := by
  cases hkey : readString fuel [] none s with
  | error damage =>
    rw [readMember, hkey]
    exact .no_members _ _
  | ok read =>
    obtain ⟨key, s'⟩ := read
    obtain ⟨d, members, ending, onward, hmember, hd⟩ :=
      readMember_eq_cons (readString_append hkey more tail)
    have hcut : ∀ d' damage, d'.Begins d → (Doc.object [(key, d')] (some damage)).Begins
        (Doc.ofMembers (readMember (fuel + more + 1) (s ++ tail))).1 := by
      intro d' damage h
      rw [hmember]
      exact .member h key [] members damage ending
    rw [readMember, hkey]
    dsimp only
    split
    · exact hcut _ _ (.broken _ d)
    · rename_i s'' hs
      have hs' := skipBlank_append hs tail
      have hbegins := ih.value s''
      rw [← hd _ hs'] at hbegins
      rcases hvalue : readValue fuel s'' with ⟨v, _ | rest⟩
      · rw [hvalue] at hbegins
        exact hcut v _ hbegins
      · rw [hvalue] at hbegins
        by_cases hrest : rest = []
        · dsimp only
          rw [hrest, readMembers_nil]
          exact hcut v _ hbegins
        · have hmore := (undisturbed tail more fuel).value hvalue (.of_ne_nil hrest)
          rw [readMember_value (readString_append hkey more tail) hs' hmore rfl]
          exact (ih.members false rest).cons_member key v
    · exact hcut _ _ (.broken _ d)

theorem Cut.readMembers_step (ih : Cut tail more fuel) (first : Bool) (s : Bytes) :
    (Doc.ofMembers (readMembers (fuel + 1) first s)).1.Begins
      (Doc.ofMembers (readMembers (fuel + more + 1) first (s ++ tail))).1 := by
  nth_rewrite 1 [← List.append_nil s]
  cases membersStep first s with
  | stop damage hstop =>
    rw [hstop fuel [] rfl]
    exact .no_members _ _
  | close rest _ hrest =>
    rw [hrest, hrest]
    exact .refl _
  | member rest _ hrest =>
    rw [hrest, hrest, List.append_nil]
    exact ih.member rest

theorem cut (tail : Bytes) (more fuel : Nat) : Cut tail more fuel := by
  induction fuel with
  | zero =>
    exact ⟨fun _ => .broken _ _, fun _ _ => .no_items _ _, fun _ => .no_items _ _,
      fun _ _ => .no_members _ _, fun _ => .no_members _ _⟩
  | succ fuel ih =>
    have hfuel : fuel + 1 + more = fuel + more + 1 := Nat.succ_add fuel more
    constructor <;> rw [hfuel]
    · exact ih.readValue_step
    · exact ih.readItems_step
    · exact ih.readItem_step
    · exact ih.readMembers_step
    · exact ih.readMember_step

end Steps

theorem root_ofBytes (s : Bytes) :
    (Document.ofBytes s).root = (readValue (3 * s.length + 3) s).1 := by
  rw [Document.ofBytes]
  rcases readValue (3 * s.length + 3) s with ⟨root, _ | rest⟩ <;> rfl

/-- What is read of a text begins what is read when more bytes follow. -/
theorem root_begins_append (s tail : Bytes) :
    (Document.ofBytes s).root.Begins (Document.ofBytes (s ++ tail)).root := by
  have hfuel : 3 * (s ++ tail).length + 3 = 3 * s.length + 3 + 3 * tail.length := by
    rw [List.length_append]
    omega
  rw [root_ofBytes, root_ofBytes, hfuel]
  exact (cut tail (3 * tail.length) (3 * s.length + 3)).value s

end ProgramSearch.Json

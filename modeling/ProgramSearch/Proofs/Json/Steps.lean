import ProgramSearch.Proofs.Json.Scanning

/-!
# One step of reading

What each reader does with the bytes in front of it, before it calls another reader. It does the
same however much fuel there is and whatever follows the text; where it stops, it does so with
blanks behind the text too.
-/
namespace ProgramSearch.Json

open Byte

section Blanks

variable {s rest : Bytes}

theorem skipBlank_append_of_blank (h : skipBlank s = []) (tail : Bytes) :
    skipBlank (s ++ tail) = skipBlank tail := by
  rw [skipBlank, List.dropWhile_append, ← skipBlank, h]
  rfl

theorem length_lt_of_skipBlank {b : UInt8} (h : skipBlank s = b :: rest) :
    rest.length < s.length := by
  have hle : (skipBlank s).length ≤ s.length := (List.dropWhile_sublist isBlank).length_le
  rw [h, List.length_cons] at hle
  omega

end Blanks

section Scalars

variable {d : Doc} {rest : Bytes}

/-- A text that was read to its end. -/
theorem exists_of_ofText {read : Except Damage (Except Fault String × Bytes)}
    (h : Doc.ofText read = (d, some rest)) :
    ∃ text, read = .ok (text, rest) ∧ d = .string text := by
  cases read <;> cases h
  exact ⟨_, rfl, rfl⟩

theorem eq_of_ofWord {e : Doc} {read : Except Fault Bytes}
    (h : Doc.ofWord e read = (d, some rest)) : read = .ok rest ∧ d = e := by
  cases read <;> cases h
  exact ⟨rfl, rfl⟩

theorem exists_of_ofNumeral {read : Except Fault (Numeral × Bytes)}
    (h : Doc.ofNumeral read = (d, some rest)) : ∃ n, read = .ok (n, rest) ∧ d = .number n := by
  cases read <;> cases h
  exact ⟨_, rfl, rfl⟩

end Scalars

/-- What reading a value comes to. -/
inductive ValueStep (s : Bytes) : Prop where
  | stop (damage : Damage) (h : ∀ fuel tail, skipBlank tail = [] →
      readValue (fuel + 1) (s ++ tail) = (.broken damage, none))
  | array (rest : Bytes) (shorter : rest.length < s.length) (h : ∀ fuel tail,
      readValue (fuel + 1) (s ++ tail) = Doc.ofItems (readItems fuel true (rest ++ tail)))
  | object (rest : Bytes) (shorter : rest.length < s.length) (h : ∀ fuel tail,
      readValue (fuel + 1) (s ++ tail) = Doc.ofMembers (readMembers fuel true (rest ++ tail)))
  | text (rest : Bytes) (shorter : rest.length < s.length) (h : ∀ fuel tail,
      readValue (fuel + 1) (s ++ tail) = Doc.ofText (readString fuel [] none (rest ++ tail)))
  | word (d : Doc) (word rest : Bytes) (plain : word.all (!isBlank ·) = true)
      (shorter : rest.length < s.length) (h : ∀ fuel tail,
        readValue (fuel + 1) (s ++ tail) = Doc.ofWord d (readWord word (rest ++ tail)))
  | numeral (negative : Bool) (rest : Bytes) (shorter : rest.length ≤ s.length) (h : ∀ fuel tail,
      readValue (fuel + 1) (s ++ tail) = Doc.ofNumeral (readNumeral negative (rest ++ tail)))

theorem valueStep (s : Bytes) : ValueStep s := by
  cases hs : skipBlank s with
  | nil =>
    refine .stop Fault.endInValue.damage fun fuel tail blank => ?_
    rw [readValue, skipBlank_append_of_blank hs, blank]
  | cons b rest =>
    have shorter := length_lt_of_skipBlank hs
    by_cases array : b = openBracket
    · refine .array rest shorter fun fuel tail => ?_
      rw [readValue, skipBlank_append hs, array]
      rfl
    by_cases object : b = Byte.openBrace
    · refine .object rest shorter fun fuel tail => ?_
      rw [readValue, skipBlank_append hs, object]
      rfl
    by_cases text : b = quote
    · refine .text rest shorter fun fuel tail => ?_
      rw [readValue, skipBlank_append hs, text]
      rfl
    by_cases null : b = letterN
    · refine .word .null [0x75, 0x6C, 0x6C] rest rfl shorter fun fuel tail => ?_
      rw [readValue, skipBlank_append hs, null]
      rfl
    by_cases yes : b = letterT
    · refine .word (.bool true) [0x72, 0x75, 0x65] rest rfl shorter fun fuel tail => ?_
      rw [readValue, skipBlank_append hs, yes]
      rfl
    by_cases no : b = letterF
    · refine .word (.bool false) [0x61, 0x6C, 0x73, 0x65] rest rfl shorter fun fuel tail => ?_
      rw [readValue, skipBlank_append hs, no]
      rfl
    by_cases negative : b = minus
    · refine .numeral true rest (Nat.le_of_lt shorter) fun fuel tail => ?_
      rw [readValue, skipBlank_append hs, negative]
      rfl
    have hother : ∀ fuel tail, readValue (fuel + 1) (s ++ tail) =
        if isDigit b then Doc.ofNumeral (readNumeral false (b :: rest ++ tail))
        else (.broken Fault.expectedValue.damage, none) := by
      intro fuel tail
      rw [readValue, skipBlank_append hs]
      split <;> simp_all
    cases digit : isDigit b with
    | true =>
      refine .numeral false (b :: rest) shorter fun fuel tail => ?_
      rw [hother, if_pos digit]
    | false =>
      refine .stop Fault.expectedValue.damage fun fuel tail _ => ?_
      rw [hother, digit, if_neg Bool.false_ne_true]

section Items

variable {fuel : Nat} {first : Bool} {s s' s'' : Bytes} {b : UInt8}

theorem readItems_blank (hs : skipBlank s = []) :
    readItems (fuel + 1) first s = ([], some Fault.endInArray.damage, none) := by
  rw [readItems, hs]

theorem readItems_nil (fuel : Nat) (first : Bool) :
    readItems fuel first [] = ([], some Fault.endInArray.damage, none) := by
  cases fuel with
  | zero => rfl
  | succ fuel => exact readItems_blank rfl

theorem readItems_close (hs : skipBlank s = closeBracket :: s') :
    readItems (fuel + 1) first s = ([], none, some s') := by
  rw [readItems, hs]
  rfl

theorem readItems_first (hs : skipBlank s = b :: s') (hb : b ≠ closeBracket) :
    readItems (fuel + 1) true s = readItem fuel (b :: s') := by
  rw [readItems, hs]
  split <;> simp_all

theorem readItems_comma (hs : skipBlank s = comma :: s') :
    readItems (fuel + 1) false s =
      match skipBlank s' with
      | [] => ([], some Fault.endInValue.damage, none)
      | closeBracket :: _ => ([], some ⟨.trailingComma, .expectedValue⟩, none)
      | s => readItem fuel s := by
  rw [readItems, hs]
  rfl

theorem readItems_next (hs : skipBlank s = comma :: s') (hs' : skipBlank s' = b :: s'')
    (hb : b ≠ closeBracket) : readItems (fuel + 1) false s = readItem fuel (b :: s'') := by
  rw [readItems_comma hs, hs']
  split <;> simp_all

theorem readItems_other (hs : skipBlank s = b :: s') (hclose : b ≠ closeBracket)
    (hcomma : b ≠ comma) :
    readItems (fuel + 1) false s = ([], some Fault.expectedCommaOrBracket.damage, none) := by
  rw [readItems, hs]
  split <;> simp_all

end Items

/-- What reading the rest of an array comes to: it stops, it is at the end, or it goes on with an
element. -/
inductive ItemsStep (first : Bool) (s : Bytes) : Prop where
  | stop (damage : Damage) (h : ∀ fuel tail, skipBlank tail = [] →
      readItems (fuel + 1) first (s ++ tail) = ([], some damage, none))
  | close (rest : Bytes) (shorter : rest.length < s.length) (h : ∀ fuel tail,
      readItems (fuel + 1) first (s ++ tail) = ([], none, some (rest ++ tail)))
  | item (rest : Bytes) (shorter : rest.length ≤ s.length) (h : ∀ fuel tail,
      readItems (fuel + 1) first (s ++ tail) = readItem fuel (rest ++ tail))

theorem itemsStep (first : Bool) (s : Bytes) : ItemsStep first s := by
  cases hs : skipBlank s with
  | nil =>
    refine .stop Fault.endInArray.damage fun fuel tail blank => readItems_blank ?_
    rw [skipBlank_append_of_blank hs, blank]
  | cons b s' =>
    have shorter := length_lt_of_skipBlank hs
    by_cases hclose : b = closeBracket
    · subst hclose
      exact .close s' shorter fun fuel tail => readItems_close (skipBlank_append hs tail)
    cases first with
    | true =>
      exact .item (b :: s') shorter fun fuel tail =>
        readItems_first (skipBlank_append hs tail) hclose
    | false =>
      by_cases hcomma : b = comma
      · subst hcomma
        cases hs' : skipBlank s' with
        | nil =>
          refine .stop Fault.endInValue.damage fun fuel tail blank => ?_
          rw [readItems_comma (skipBlank_append hs tail), skipBlank_append_of_blank hs', blank]
        | cons c s'' =>
          by_cases hc : c = closeBracket
          · subst hc
            refine .stop ⟨.trailingComma, .expectedValue⟩ fun fuel tail _ => ?_
            rw [readItems_comma (skipBlank_append hs tail), skipBlank_append hs']
            rfl
          · have shorter' := length_lt_of_skipBlank hs'
            refine .item (c :: s'') ?_ fun fuel tail =>
              readItems_next (skipBlank_append hs tail) (skipBlank_append hs' tail) hc
            rw [List.length_cons]
            omega
      · exact .stop Fault.expectedCommaOrBracket.damage fun fuel tail _ =>
          readItems_other (skipBlank_append hs tail) hclose hcomma

section Members

variable {fuel : Nat} {first : Bool} {s s' s'' : Bytes} {b : UInt8}

theorem readMembers_blank (hs : skipBlank s = []) :
    readMembers (fuel + 1) first s = ([], some Fault.endInObject.damage, none) := by
  rw [readMembers, hs]

theorem readMembers_nil (fuel : Nat) (first : Bool) :
    readMembers fuel first [] = ([], some Fault.endInObject.damage, none) := by
  cases fuel with
  | zero => rfl
  | succ fuel => exact readMembers_blank rfl

theorem readMembers_close (hs : skipBlank s = Byte.closeBrace :: s') :
    readMembers (fuel + 1) first s = ([], none, some s') := by
  rw [readMembers, hs]
  rfl

theorem readMembers_first (hs : skipBlank s = quote :: s') :
    readMembers (fuel + 1) true s = readMember fuel s' := by
  rw [readMembers, hs]
  rfl

theorem readMembers_first_other (hs : skipBlank s = b :: s') (hclose : b ≠ Byte.closeBrace)
    (hquote : b ≠ quote) :
    readMembers (fuel + 1) true s = ([], some Fault.keyNotString.damage, none) := by
  rw [readMembers, hs]
  split <;> simp_all

theorem readMembers_comma (hs : skipBlank s = comma :: s') :
    readMembers (fuel + 1) false s =
      match skipBlank s' with
      | [] => ([], some ⟨.endInValue, .endInObject⟩, none)
      | Byte.closeBrace :: _ => ([], some ⟨.trailingComma, .keyNotString⟩, none)
      | quote :: s => readMember fuel s
      | _ => ([], some Fault.keyNotString.damage, none) := by
  rw [readMembers, hs]
  rfl

theorem readMembers_other (hs : skipBlank s = b :: s') (hclose : b ≠ Byte.closeBrace)
    (hcomma : b ≠ comma) :
    readMembers (fuel + 1) false s = ([], some Fault.expectedCommaOrBrace.damage, none) := by
  rw [readMembers, hs]
  split <;> simp_all

end Members

/-- What reading the rest of an object comes to: it stops, it is at the end, or it goes on with a
member, behind the quote of its key. -/
inductive MembersStep (first : Bool) (s : Bytes) : Prop where
  | stop (damage : Damage) (h : ∀ fuel tail, skipBlank tail = [] →
      readMembers (fuel + 1) first (s ++ tail) = ([], some damage, none))
  | close (rest : Bytes) (shorter : rest.length < s.length) (h : ∀ fuel tail,
      readMembers (fuel + 1) first (s ++ tail) = ([], none, some (rest ++ tail)))
  | member (rest : Bytes) (shorter : rest.length < s.length) (h : ∀ fuel tail,
      readMembers (fuel + 1) first (s ++ tail) = readMember fuel (rest ++ tail))

theorem membersStep (first : Bool) (s : Bytes) : MembersStep first s := by
  cases hs : skipBlank s with
  | nil =>
    refine .stop Fault.endInObject.damage fun fuel tail blank => readMembers_blank ?_
    rw [skipBlank_append_of_blank hs, blank]
  | cons b s' =>
    have shorter := length_lt_of_skipBlank hs
    by_cases hclose : b = Byte.closeBrace
    · subst hclose
      exact .close s' shorter fun fuel tail => readMembers_close (skipBlank_append hs tail)
    cases first with
    | true =>
      by_cases hquote : b = quote
      · subst hquote
        exact .member s' shorter fun fuel tail => readMembers_first (skipBlank_append hs tail)
      · exact .stop Fault.keyNotString.damage fun fuel tail _ =>
          readMembers_first_other (skipBlank_append hs tail) hclose hquote
    | false =>
      by_cases hcomma : b = comma
      · subst hcomma
        cases hs' : skipBlank s' with
        | nil =>
          refine .stop ⟨.endInValue, .endInObject⟩ fun fuel tail blank => ?_
          rw [readMembers_comma (skipBlank_append hs tail), skipBlank_append_of_blank hs', blank]
        | cons c s'' =>
          have shorter' := length_lt_of_skipBlank hs'
          by_cases hc : c = Byte.closeBrace
          · subst hc
            refine .stop ⟨.trailingComma, .keyNotString⟩ fun fuel tail _ => ?_
            rw [readMembers_comma (skipBlank_append hs tail), skipBlank_append hs']
            rfl
          by_cases hquote : c = quote
          · subst hquote
            refine .member s'' (Nat.lt_trans shorter' shorter) fun fuel tail => ?_
            rw [readMembers_comma (skipBlank_append hs tail), skipBlank_append hs']
            rfl
          · refine .stop Fault.keyNotString.damage fun fuel tail _ => ?_
            rw [readMembers_comma (skipBlank_append hs tail), skipBlank_append hs']
            split <;> simp_all
      · exact .stop Fault.expectedCommaOrBrace.damage fun fuel tail _ =>
          readMembers_other (skipBlank_append hs tail) hclose hcomma

section Member

variable {fuel : Nat} {s s' s'' rest : Bytes} {key : Except Fault String} {v : Doc}

theorem readMember_of_error {damage : Damage} (hkey : readString fuel [] none s = .error damage) :
    readMember (fuel + 1) s = ([], some damage, none) := by
  rw [readMember, hkey]

/-- A member, once its key was read up to the colon. -/
theorem readMember_colon (hkey : readString fuel [] none s = .ok (key, s'))
    (hs : skipBlank s' = colon :: s'') :
    readMember (fuel + 1) s =
      match readValue fuel s'' with
      | (v, none) => ([(key, v)], some Fault.endInObject.damage, none)
      | (v, some rest) =>
        let (members, ending, rest) := readMembers fuel false rest
        ((key, v) :: members, ending, rest) := by
  rw [readMember, hkey]
  simp only [hs]
  rfl

theorem readMember_stopped (hkey : readString fuel [] none s = .ok (key, s'))
    (hs : skipBlank s' = colon :: s'') (hvalue : readValue fuel s'' = (v, none)) :
    readMember (fuel + 1) s = ([(key, v)], some Fault.endInObject.damage, none) := by
  rw [readMember_colon hkey hs, hvalue]

theorem readMember_value {members : List (Except Fault String × Doc)} {ending : Option Damage}
    {onward : Onward} (hkey : readString fuel [] none s = .ok (key, s'))
    (hs : skipBlank s' = colon :: s'') (hvalue : readValue fuel s'' = (v, some rest))
    (hmembers : readMembers fuel false rest = (members, ending, onward)) :
    readMember (fuel + 1) s = ((key, v) :: members, ending, onward) := by
  rw [readMember_colon hkey hs, hvalue]
  simp only [hmembers]

end Member

/-- What stands behind a key: the text stops there, or a colon follows. -/
inductive ColonStep (left : Bytes) : Prop where
  | stop (damage : Damage) (h : ∀ fuel s key tail, skipBlank tail = [] →
      readString fuel [] none s = .ok (key, left ++ tail) →
      readMember (fuel + 1) s = ([(key, .broken damage)], some damage, none))
  | colon (rest : Bytes) (shorter : rest.length < left.length) (h : ∀ tail,
      skipBlank (left ++ tail) = colon :: (rest ++ tail))

theorem colonStep (left : Bytes) : ColonStep left := by
  cases hs : skipBlank left with
  | nil =>
    refine .stop Fault.endInObject.damage fun fuel s key tail blank hkey => ?_
    rw [readMember, hkey]
    simp only [skipBlank_append_of_blank hs, blank]
  | cons b rest =>
    by_cases hcolon : b = colon
    · subst hcolon
      exact .colon rest (length_lt_of_skipBlank hs) (skipBlank_append hs)
    · refine .stop Fault.expectedColon.damage fun fuel s key tail _ hkey => ?_
      rw [readMember, hkey]
      simp only [skipBlank_append hs]
      split <;> simp_all

end ProgramSearch.Json

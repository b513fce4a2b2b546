import ProgramSearch.Proofs.Json.Reading

/-!
# Enough fuel

Whatever is read takes bytes from the text. Hence three units of fuel for each byte, and three more,
are enough to read a text: more fuel changes nothing.
-/
namespace ProgramSearch.Json

open Byte

section Scanners

variable {s rest : Bytes}

theorem length_le_of_readWord {word : Bytes} (h : readWord word s = .ok rest) :
    rest.length ≤ s.length := by
  fun_induction readWord word s with
  | case1 => exact Nat.le_of_eq (by rw [Except.ok.inj h])
  | case2 => contradiction
  | case3 w ws b s same ih =>
    have hle := ih h
    rw [List.length_cons]
    omega
  | case4 => contradiction

theorem length_lt_of_readDigits {ds : List Nat} (h : readDigits s = .ok (ds, rest)) :
    rest.length < s.length := by
  have hsplit := congrArg List.length (List.takeWhile_append_dropWhile (p := isDigit) (l := s))
  rw [List.length_append] at hsplit
  rw [readDigits] at h
  cases htaken : s.takeWhile isDigit with
  | nil =>
    rw [takeDigits, htaken] at h
    cases hleft : s.dropWhile isDigit <;> rw [hleft] at h <;> contradiction
  | cons d taken =>
    rw [takeDigits, htaken] at h
    obtain ⟨-, rfl⟩ := Prod.mk.inj (Except.ok.inj h)
    rw [htaken, List.length_cons] at hsplit
    omega

theorem length_lt_of_readWhole {ds : List Nat} (h : readWhole s = .ok (ds, rest)) :
    rest.length < s.length := by
  obtain ⟨⟨taken, left⟩, htaken, h⟩ := bind_ok h
  split at h
  · contradiction
  · rename_i heq
    obtain ⟨rfl, rfl⟩ := Prod.mk.inj heq
    obtain ⟨rfl, rfl⟩ := Prod.mk.inj (Except.ok.inj h)
    exact length_lt_of_readDigits htaken

theorem length_le_of_readFraction {ds : Option (List Nat)} (h : readFraction s = .ok (ds, rest)) :
    rest.length ≤ s.length := by
  fun_cases readFraction s with
  | case1 s =>
    obtain ⟨⟨taken, left⟩, htaken, h⟩ := bind_ok h
    obtain ⟨rfl, rfl⟩ := Prod.mk.inj (Except.ok.inj h)
    have hlt := length_lt_of_readDigits htaken
    rw [List.length_cons]
    omega
  | case2 =>
    rename_i hpoint
    rw [readFraction.eq_2 s hpoint] at h
    exact Nat.le_of_eq (by rw [(Prod.mk.inj (Except.ok.inj h)).2])

theorem length_le_of_readScale {e : Option (Bool × List Nat)} (h : readScale s = .ok (e, rest)) :
    rest.length ≤ s.length := by
  fun_cases readScale s with
  | case3 =>
    rename_i hminus hplus
    rw [readScale.eq_3 s hminus hplus] at h
    obtain ⟨⟨taken, left⟩, htaken, h⟩ := bind_ok h
    obtain ⟨rfl, rfl⟩ := Prod.mk.inj (Except.ok.inj h)
    exact Nat.le_of_lt (length_lt_of_readDigits htaken)
  | _ s =>
    obtain ⟨⟨taken, left⟩, htaken, h⟩ := bind_ok h
    obtain ⟨rfl, rfl⟩ := Prod.mk.inj (Except.ok.inj h)
    have hlt := length_lt_of_readDigits htaken
    rw [List.length_cons]
    omega

theorem length_le_of_readExponent {e : Option (Bool × List Nat)}
    (h : readExponent s = .ok (e, rest)) : rest.length ≤ s.length := by
  fun_cases readExponent s with
  | case3 =>
    rename_i hlarge hsmall
    rw [readExponent.eq_3 s hlarge hsmall] at h
    exact Nat.le_of_eq (by rw [(Prod.mk.inj (Except.ok.inj h)).2])
  | _ s =>
    have hle := length_le_of_readScale (s := s) h
    rw [List.length_cons]
    omega

theorem length_lt_of_readNumeral {negative : Bool} {n : Numeral}
    (h : readNumeral negative s = .ok (n, rest)) : rest.length < s.length := by
  obtain ⟨⟨whole, s₁⟩, hwhole, h⟩ := bind_ok h
  obtain ⟨⟨fraction, s₂⟩, hfraction, h⟩ := bind_ok h
  obtain ⟨⟨exponent, s₃⟩, hexponent, h⟩ := bind_ok h
  obtain ⟨rfl, rfl⟩ := Prod.mk.inj (Except.ok.inj h)
  have hlt := length_lt_of_readWhole hwhole
  have hle := length_le_of_readFraction hfraction
  have hle' := length_le_of_readExponent hexponent
  omega

theorem suffix_of_readHex4 {n : Nat} (h : readHex4 s = .ok (n, rest)) : rest <:+ s := by
  obtain ⟨digits, hs, -, -⟩ := exists_digits_of_readHex4 h
  exact ⟨digits, hs.symm⟩

theorem suffix_of_readTrailing {n : Nat} {e : Escape} (h : readTrailing n s = .ok e) :
    e.rest <:+ s := by
  fun_cases readTrailing n s with
  | case1 => contradiction
  | case2 => contradiction
  | case3 s =>
    obtain ⟨⟨m, left⟩, hm, h⟩ := bind_ok h
    have hsuffix := (suffix_of_readHex4 hm).trans (List.suffix_append [backslash, letterU] s)
    dsimp only at h
    split_ifs at h <;>
    · rw [← Except.ok.inj h]
      exact hsuffix
  | case4 =>
    rename_i hnil hone hpair
    rw [readTrailing.eq_4 n s hnil hone hpair] at h
    obtain rfl := Except.ok.inj h
    exact List.suffix_rfl

theorem suffix_of_readUnicode {e : Escape} (h : readUnicode s = .ok e) : e.rest <:+ s := by
  obtain ⟨⟨n, left⟩, hn, h⟩ := bind_ok h
  have hsuffix := suffix_of_readHex4 hn
  dsimp only at h
  split_ifs at h
  · rwa [← Except.ok.inj h]
  · exact (suffix_of_readTrailing h).trans hsuffix
  · rwa [← Except.ok.inj h]

theorem suffix_of_readEscape {e : Escape} (h : readEscape s = .ok e) : e.rest <:+ s := by
  fun_cases readEscape s with
  | case1 => contradiction
  | case10 s => exact (suffix_of_readUnicode (s := s) h).trans (List.suffix_cons _ s)
  | case11 => simp_all [readEscape]
  | _ s =>
    rw [← Except.ok.inj h]
    exact List.suffix_cons _ s

theorem length_lt_of_readString {fuel : Nat} {collected : Bytes} {soft : Option Fault}
    {text : Except Fault String} (h : readString fuel collected soft s = .ok (text, rest)) :
    rest.length < s.length := by
  fun_induction readString fuel collected soft s with
  | case3 fuel collected soft b s isQuote =>
    rw [(Prod.mk.inj (Except.ok.inj h)).2, List.length_cons]
    exact Nat.lt_succ_self _
  | case4 fuel collected soft b s noQuote isEscape e hescape ih =>
    have hle := (suffix_of_readEscape hescape).length_le
    have hlt := ih h
    rw [List.length_cons]
    omega
  | case7 fuel collected soft b s noQuote noEscape isPlain ih =>
    have hlt := ih h
    rw [List.length_cons]
    omega
  | _ => contradiction

theorem readString_fuel {fuel : Nat} (more : Nat) (collected : Bytes) (soft : Option Fault)
    (enough : s.length < fuel) :
    readString (fuel + more) collected soft s = readString fuel collected soft s := by
  induction fuel generalizing s collected soft with
  | zero => contradiction
  | succ fuel ih =>
    rw [Nat.succ_add]
    cases s with
    | nil => rfl
    | cons b s =>
      rw [List.length_cons] at enough
      rw [readString, readString]
      cases hescape : readEscape s with
      | error fault =>
        dsimp only
        rw [ih _ _ (by omega)]
      | ok e =>
        have hle := (suffix_of_readEscape hescape).length_le
        dsimp only
        rw [ih _ _ (by omega), ih _ _ (by omega)]

end Scanners

/-- What a reader with the given fuel leaves is shorter than what it was given. -/
structure Consumes (fuel : Nat) : Prop where
  value : ∀ {s d rest}, readValue fuel s = (d, some rest) → rest.length < s.length
  items : ∀ {first s items ending rest}, readItems fuel first s = (items, ending, some rest) →
    rest.length < s.length
  item : ∀ {s items ending rest}, readItem fuel s = (items, ending, some rest) →
    rest.length < s.length
  members : ∀ {first s members ending rest},
    readMembers fuel first s = (members, ending, some rest) → rest.length < s.length
  member : ∀ {s members ending rest}, readMember fuel s = (members, ending, some rest) →
    rest.length < s.length

section Consumes

variable {fuel : Nat} {s rest : Bytes}

theorem Consumes.value_step (ih : Consumes fuel) {d : Doc}
    (h : readValue (fuel + 1) s = (d, some rest)) : rest.length < s.length := by
  rw [← List.append_nil s] at h
  cases valueStep s with
  | stop damage hstop =>
    rw [hstop fuel [] rfl] at h
    cases h
  | array left shorter hleft =>
    rcases hitems : readItems fuel true left with ⟨items, ending, onward⟩
    rw [hleft, List.append_nil, hitems] at h
    cases h
    exact Nat.lt_trans (ih.items hitems) shorter
  | object left shorter hleft =>
    rcases hmembers : readMembers fuel true left with ⟨members, ending, onward⟩
    rw [hleft, List.append_nil, hmembers] at h
    cases h
    exact Nat.lt_trans (ih.members hmembers) shorter
  | text left shorter hleft =>
    rw [hleft, List.append_nil] at h
    obtain ⟨text, htext, -⟩ := exists_of_ofText h
    exact Nat.lt_trans (length_lt_of_readString htext) shorter
  | word e word left _ shorter hleft =>
    rw [hleft, List.append_nil] at h
    exact Nat.lt_of_le_of_lt (length_le_of_readWord (eq_of_ofWord h).1) shorter
  | numeral negative left shorter hleft =>
    rw [hleft, List.append_nil] at h
    obtain ⟨n, hnumeral, -⟩ := exists_of_ofNumeral h
    exact Nat.lt_of_lt_of_le (length_lt_of_readNumeral hnumeral) shorter

theorem Consumes.item_step (ih : Consumes fuel) {items : List Doc} {ending : Option Damage}
    (h : readItem (fuel + 1) s = (items, ending, some rest)) : rest.length < s.length := by
  rw [readItem] at h
  rcases hitem : readValue fuel s with ⟨item, _ | left⟩
  · rw [hitem] at h
    cases h
  · rcases hitems : readItems fuel false left with ⟨others, ending, onward⟩
    simp only [hitem, hitems] at h
    cases h
    exact Nat.lt_trans (ih.items hitems) (ih.value hitem)

theorem Consumes.items_step (ih : Consumes fuel) {first : Bool} {items : List Doc}
    {ending : Option Damage} (h : readItems (fuel + 1) first s = (items, ending, some rest)) :
    rest.length < s.length := by
  rw [← List.append_nil s] at h
  cases itemsStep first s with
  | stop damage hstop =>
    rw [hstop fuel [] rfl] at h
    cases h
  | close left shorter hleft =>
    rw [hleft, List.append_nil] at h
    cases h
    exact shorter
  | item left shorter hleft =>
    rw [hleft, List.append_nil] at h
    exact Nat.lt_of_lt_of_le (ih.item h) shorter

theorem Consumes.member_step (ih : Consumes fuel) {members : List (Except Fault String × Doc)}
    {ending : Option Damage} (h : readMember (fuel + 1) s = (members, ending, some rest)) :
    rest.length < s.length := by
  cases hkey : readString fuel [] none s with
  | error damage =>
    rw [readMember_of_error hkey] at h
    cases h
  | ok read =>
    obtain ⟨key, left⟩ := read
    have hlt := length_lt_of_readString hkey
    cases colonStep left with
    | stop damage hstop =>
      rw [hstop fuel s key [] rfl (by rw [List.append_nil, hkey])] at h
      cases h
    | colon behind shorter hcolon =>
      have hbehind := hcolon []
      rw [List.append_nil, List.append_nil] at hbehind
      rcases hvalue : readValue fuel behind with ⟨v, _ | onward⟩
      · rw [readMember_stopped hkey hbehind hvalue] at h
        cases h
      · rcases hmembers : readMembers fuel false onward with ⟨others, ending, onward'⟩
        rw [readMember_value hkey hbehind hvalue hmembers] at h
        cases h
        have := ih.value hvalue
        have := ih.members hmembers
        omega

theorem Consumes.members_step (ih : Consumes fuel) {first : Bool}
    {members : List (Except Fault String × Doc)} {ending : Option Damage}
    (h : readMembers (fuel + 1) first s = (members, ending, some rest)) :
    rest.length < s.length := by
  rw [← List.append_nil s] at h
  cases membersStep first s with
  | stop damage hstop =>
    rw [hstop fuel [] rfl] at h
    cases h
  | close left shorter hleft =>
    rw [hleft, List.append_nil] at h
    cases h
    exact shorter
  | member left shorter hleft =>
    rw [hleft, List.append_nil] at h
    exact Nat.lt_trans (ih.member h) shorter

theorem consumes (fuel : Nat) : Consumes fuel := by
  induction fuel with
  | zero => exact ⟨nofun, nofun, nofun, nofun, nofun⟩
  | succ fuel ih =>
    exact ⟨ih.value_step, ih.items_step, ih.item_step, ih.members_step, ih.member_step⟩

end Consumes

/-- With fuel enough for a text, more of it changes nothing. -/
structure Saturated (more fuel : Nat) : Prop where
  value : ∀ {s}, 3 * s.length + 1 ≤ fuel → readValue (fuel + more) s = readValue fuel s
  items : ∀ {first s}, 3 * s.length + 3 ≤ fuel →
    readItems (fuel + more) first s = readItems fuel first s
  item : ∀ {s}, 3 * s.length + 2 ≤ fuel → readItem (fuel + more) s = readItem fuel s
  members : ∀ {first s}, 3 * s.length + 3 ≤ fuel →
    readMembers (fuel + more) first s = readMembers fuel first s
  member : ∀ {s}, 3 * s.length + 2 ≤ fuel → readMember (fuel + more) s = readMember fuel s

section Saturated

variable {more fuel : Nat} {s : Bytes}

theorem Saturated.value_step (ih : Saturated more fuel) (enough : 3 * s.length + 1 ≤ fuel + 1) :
    readValue (fuel + more + 1) s = readValue (fuel + 1) s := by
  rw [← List.append_nil s]
  cases valueStep s with
  | stop damage hstop => rw [hstop _ [] rfl, hstop _ [] rfl]
  | array rest shorter hrest =>
    rw [hrest, hrest, List.append_nil, ih.items (by omega)]
  | object rest shorter hrest =>
    rw [hrest, hrest, List.append_nil, ih.members (by omega)]
  | text rest shorter hrest =>
    rw [hrest, hrest, List.append_nil, readString_fuel more [] none (by omega)]
  | word d word rest _ _ hrest => rw [hrest, hrest]
  | numeral negative rest _ hrest => rw [hrest, hrest]

theorem Saturated.item_step (ih : Saturated more fuel) (enough : 3 * s.length + 2 ≤ fuel + 1) :
    readItem (fuel + more + 1) s = readItem (fuel + 1) s := by
  rw [readItem, readItem, ih.value (by omega)]
  rcases hitem : readValue fuel s with ⟨item, _ | rest⟩
  · rfl
  · have shorter := (consumes fuel).value hitem
    dsimp only
    rw [ih.items (by omega)]

theorem Saturated.items_step (ih : Saturated more fuel) {first : Bool}
    (enough : 3 * s.length + 3 ≤ fuel + 1) :
    readItems (fuel + more + 1) first s = readItems (fuel + 1) first s := by
  rw [← List.append_nil s]
  cases itemsStep first s with
  | stop damage hstop => rw [hstop _ [] rfl, hstop _ [] rfl]
  | close rest _ hrest => rw [hrest, hrest]
  | item rest shorter hrest => rw [hrest, hrest, List.append_nil, ih.item (by omega)]

theorem Saturated.member_step (ih : Saturated more fuel) (enough : 3 * s.length + 2 ≤ fuel + 1) :
    readMember (fuel + more + 1) s = readMember (fuel + 1) s := by
  have hstring : readString (fuel + more) [] none s = readString fuel [] none s :=
    readString_fuel more [] none (by omega)
  cases hkey : readString fuel [] none s with
  | error damage =>
    rw [hkey] at hstring
    rw [readMember_of_error hkey, readMember_of_error hstring]
  | ok read =>
    obtain ⟨key, left⟩ := read
    have hlt := length_lt_of_readString hkey
    rw [hkey] at hstring
    cases colonStep left with
    | stop damage hstop =>
      rw [hstop fuel s key [] rfl (by rw [List.append_nil, hkey]),
        hstop _ s key [] rfl (by rw [List.append_nil, hstring])]
    | colon behind shorter hcolon =>
      have hbehind := hcolon []
      rw [List.append_nil, List.append_nil] at hbehind
      rw [readMember_colon hkey hbehind, readMember_colon hstring hbehind, ih.value (by omega)]
      rcases hvalue : readValue fuel behind with ⟨v, _ | rest⟩
      · rfl
      · have := (consumes fuel).value hvalue
        dsimp only
        rw [ih.members (by omega)]

theorem Saturated.members_step (ih : Saturated more fuel) {first : Bool}
    (enough : 3 * s.length + 3 ≤ fuel + 1) :
    readMembers (fuel + more + 1) first s = readMembers (fuel + 1) first s := by
  rw [← List.append_nil s]
  cases membersStep first s with
  | stop damage hstop => rw [hstop _ [] rfl, hstop _ [] rfl]
  | close rest _ hrest => rw [hrest, hrest]
  | member rest shorter hrest => rw [hrest, hrest, List.append_nil, ih.member (by omega)]

theorem saturated (more fuel : Nat) : Saturated more fuel := by
  induction fuel with
  | zero =>
    constructor <;> intros <;> rename_i enough <;> exact absurd enough (Nat.not_succ_le_zero _)
  | succ fuel ih =>
    have hfuel : fuel + 1 + more = fuel + more + 1 := Nat.succ_add fuel more
    constructor <;> rw [hfuel]
    · exact ih.value_step
    · exact ih.items_step
    · exact ih.item_step
    · exact ih.members_step
    · exact ih.member_step

end Saturated

/-- The fuel that a text is read with is enough: with any other that is enough, it is read alike. -/
theorem readValue_of_enough {fuel fuel' : Nat} {s : Bytes} (enough : 3 * s.length + 1 ≤ fuel)
    (enough' : 3 * s.length + 1 ≤ fuel') : readValue fuel s = readValue fuel' s := by
  obtain ⟨more, rfl⟩ := Nat.exists_eq_add_of_le enough
  obtain ⟨more', rfl⟩ := Nat.exists_eq_add_of_le enough'
  rw [(saturated more _).value (Nat.le_refl _), (saturated more' _).value (Nat.le_refl _)]

end ProgramSearch.Json

import TrwMcp.Handoff.Canonical
import TrwMcp.Handoff.Loads

/-!
# The parser reads back what the encoder writes

`scanOnce` on the text of a value, followed by anything that cannot continue a number, returns the
canonical form of the value and the rest of the text. The argument is by structure of the value:
strings undo their escapes one character at a time, a number stops where its digits do, and the
list parsers are driven by the separators the encoder puts between the parts.

The fuel a text needs is twice its length, which is what `parseText` supplies.
-/

namespace TrwMcp.Handoff

open Lib

/-! ## Strings -/

theorem hexValue_hexDigit : ∀ d < 16, hexValue (hexDigit d) = some d := by decide

theorem hexUnit_low {n : Nat} (hn : n < 32) (rest : List Char) :
    hexUnit ('0' :: '0' :: hexDigit (n / 16) :: hexDigit (n % 16) :: rest) = some (n, rest) := by
  have h₁ := hexValue_hexDigit (n / 16) (by omega)
  have h₂ := hexValue_hexDigit (n % 16) (by omega)
  have h₀ : hexValue '0' = some 0 := by decide
  have hval : n / 16 * 16 + n % 16 = n := by omega
  simp [hexUnit, h₀, h₁, h₂, hval]

theorem char_eq_of_toNat {c : Char} {n : Nat} (h : c.toNat = n) : c = Char.ofNat n := by
  rw [← h, Char.ofNat_toNat]

theorem lexeme_escapeChar (c : Char) (rest : List Char) :
    lexeme (escapeChar c ++ rest) = .char c rest ∨
      (c.toNat < 32 ∧ lexeme (escapeChar c ++ rest) = .unit c.toNat rest) := by
  unfold escapeChar
  by_cases hquote : c = '"'
  · left; subst hquote; rfl
  by_cases hback : c = '\\'
  · left; subst hback; rfl
  by_cases hn : c = '\n'
  · left; subst hn; rfl
  by_cases hr : c = '\r'
  · left; subst hr; rfl
  by_cases ht : c = '\t'
  · left; subst ht; rfl
  by_cases hb : c.toNat = 8
  · left; rw [char_eq_of_toNat hb]; rfl
  by_cases hf : c.toNat = 12
  · left; rw [char_eq_of_toNat hf]; rfl
  by_cases hctl : c.toNat < 32
  · right
    refine ⟨hctl, ?_⟩
    simp [hquote, hback, hn, hr, ht, hb, hf, hctl, lexeme, hexUnit_low hctl]
  · left
    simp [hquote, hback, hn, hr, ht, hb, hf, hctl, lexeme]

theorem scanString_escapeChar (n : Nat) (c : Char) (rest : List Char) :
    scanString (n + 1) (escapeChar c ++ rest) = do
      let (s, rest) ← scanString n rest
      return (c :: s, rest) := by
  rcases lexeme_escapeChar c rest with h | ⟨hctl, h⟩
  · simp only [scanString, h]
  · have hhigh : isHigh c.toNat = false := by simp [isHigh]; omega
    have hlow : isLow c.toNat = false := by simp [isLow]; omega
    simp [scanString, h, hhigh, hlow, Char.ofNat_toNat]

theorem scanString_ok {s : List Char} {n : Nat} (hn : s.length < n) (rest : List Char) :
    scanString n (s.flatMap escapeChar ++ '"' :: rest) = .ok (s, rest) := by
  induction s generalizing n with
  | nil =>
      obtain ⟨m, rfl⟩ : ∃ m, n = m + 1 := ⟨n - 1, by simp at hn; omega⟩
      rfl
  | cons c s ih =>
      obtain ⟨m, rfl⟩ : ∃ m, n = m + 1 := ⟨n - 1, by omega⟩
      rw [List.flatMap_cons, List.append_assoc, scanString_escapeChar,
        ih (by simpa using hn)]
      rfl

theorem length_le_flatMap_escapeChar (s : List Char) :
    s.length ≤ (s.flatMap escapeChar).length := by
  induction s with
  | nil => simp
  | cons c s ih =>
      have hc : 1 ≤ (escapeChar c).length := by
        unfold escapeChar
        repeat' split
        all_goals simp
      simp only [List.flatMap_cons, List.length_append, List.length_cons]
      omega

theorem scanString_jsonString (k : String) (rest : List Char) :
    ∃ body, jsonString k ++ rest = '"' :: body ∧
      scanString body.length body = .ok (k.toList, rest) := by
  refine ⟨k.toList.flatMap escapeChar ++ '"' :: rest, by simp [jsonString], ?_⟩
  apply scanString_ok
  have := length_le_flatMap_escapeChar k.toList
  simp only [List.length_append, List.length_cons]
  omega

/-! ## Numbers -/

/-- What may follow a value in canonical text: nothing, or a separator. -/
def Follows (rest : List Char) : Prop :=
  ∀ c ∈ rest.head?, c = ',' ∨ c = ']' ∨ c = '\x7d'

theorem follows_nil : Follows [] := by simp [Follows]

theorem follows_cons {c : Char} (h : c = ',' ∨ c = ']' ∨ c = '\x7d') (rest : List Char) :
    Follows (c :: rest) := by simpa [Follows] using h

theorem takeWhile_digits {ds rest : List Char} (hd : ∀ c ∈ ds, c.isDigit) (hr : Follows rest) :
    (ds ++ rest).takeWhile Char.isDigit = ds ∧ (ds ++ rest).dropWhile Char.isDigit = rest := by
  have hstop : rest.takeWhile Char.isDigit = [] ∧ rest.dropWhile Char.isDigit = rest := by
    cases rest with
    | nil => simp
    | cons c rest =>
        have hc : c.isDigit = false := by
          rcases hr c rfl with rfl | rfl | rfl <;> decide
        simp [hc]
  rw [List.takeWhile_append_of_pos hd, List.dropWhile_append_of_pos hd, hstop.1, hstop.2]
  simp

theorem scanFraction_follows {rest : List Char} (hr : Follows rest) :
    scanFraction rest = ([], rest) := by
  cases rest with
  | nil => rfl
  | cons c rest => rcases hr c rfl with rfl | rfl | rfl <;> rfl

theorem scanExponent_follows {rest : List Char} (hr : Follows rest) :
    scanExponent rest = ([], rest) := by
  cases rest with
  | nil => rfl
  | cons c rest => rcases hr c rfl with rfl | rfl | rfl <;> rfl

theorem toDigits_head (n : Nat) :
    (n = 0 ∧ Nat.toDigits 10 n = ['0']) ∨ ∃ d ds, Nat.toDigits 10 n = d :: ds ∧ d ≠ '0' := by
  induction n using Nat.strongRecOn with
  | ind n ih =>
      by_cases hlt : n < 10
      · rw [Nat.toDigits_of_lt_base hlt]
        interval_cases n
        · exact .inl ⟨rfl, rfl⟩
        all_goals exact .inr ⟨_, _, rfl, by decide⟩
      · rw [Nat.toDigits_of_base_le (by decide) (by omega)]
        rcases ih (n / 10) (by omega) with ⟨h0, _⟩ | ⟨d, ds, hds, hd⟩
        · omega
        · exact .inr ⟨d, ds ++ [(n % 10).digitChar], by simp [hds], hd⟩

theorem digits_isDigit (n : Nat) : ∀ c ∈ Nat.toDigits 10 n, c.isDigit :=
  fun _ hc => Nat.isDigit_of_mem_toDigits (by decide) (by decide) hc

theorem scanDigits_toDigits (n : Nat) {rest : List Char} (hr : Follows rest) :
    scanDigits (Nat.toDigits 10 n ++ rest) = some (Nat.toDigits 10 n, rest) := by
  have hall := digits_isDigit n
  rcases toDigits_head n with ⟨_, h⟩ | ⟨d, ds, h, hd⟩
  · rw [h]; rfl
  · rw [h] at hall ⊢
    have hds : ∀ c ∈ ds, c.isDigit := fun c hc => hall c (by simp [hc])
    obtain ⟨htake, hdrop⟩ := takeWhile_digits hds hr
    have hdd : d.isDigit := hall d (by simp)
    rw [List.cons_append, scanDigits]
    · simp [hdd, htake, hdrop]
    · simpa using hd

theorem toDigits_length_le {n : Nat} (h : n ≤ 2 ^ 53 - 1) :
    (Nat.toDigits 10 n).length ≤ maxIntDigits := by
  have h16 : (Nat.toDigits 10 n).length ≤ 16 :=
    (Nat.length_toDigits_le_iff (by decide) (by decide)).mpr (by omega)
  exact h16.trans (by decide)

theorem scanUnsigned_toDigits {n : Nat} (h : n ≤ 2 ^ 53 - 1) (negative : Bool)
    {rest : List Char} (hr : Follows rest) :
    scanUnsigned negative (Nat.toDigits 10 n ++ rest) =
      .ok (.int (if negative then -(n : Int) else n), rest) := by
  have hlen := toDigits_length_le h
  have hval : Nat.ofDigitChars 10 (Nat.toDigits 10 n) 0 = n := Nat.ofDigitChars_ten_toDigits
  simp [scanUnsigned, scanDigits_toDigits n hr, scanFraction_follows hr, scanExponent_follows hr,
    Nat.not_lt.mpr hlen, hval, pure, Except.pure]

theorem scanScalar_of_digit {d : Char} (hd : d.isDigit) (rest : List Char) :
    scanScalar (d :: rest) = scanUnsigned false (d :: rest) := by
  have hne : d ≠ '-' ∧ d ≠ 'n' ∧ d ≠ 't' ∧ d ≠ 'f' ∧ d ≠ 'N' ∧ d ≠ 'I' := by
    refine ⟨?_, ?_, ?_, ?_, ?_, ?_⟩ <;> rintro rfl <;> exact absurd hd (by decide)
  obtain ⟨hm, hn, ht, hf, hN, hI⟩ := hne
  unfold scanScalar
  split
  · next heq => exact absurd (List.cons.inj heq).1 hm
  · simp [dropLiteral, List.isPrefixOf, Ne.symm hn, Ne.symm ht, Ne.symm hf, Ne.symm hN,
      Ne.symm hI]

theorem dropLiteral_infinity_of_digit {d : Char} (hd : d.isDigit) (rest : List Char) :
    dropLiteral "Infinity" (d :: rest) = none := by
  have hI : d ≠ 'I' := by rintro rfl; exact absurd hd (by decide)
  simp [dropLiteral, List.isPrefixOf, Ne.symm hI]

theorem scanScalar_int {n : Int} (hn : -safeInt ≤ n ∧ n ≤ safeInt) {rest : List Char}
    (hr : Follows rest) : scanScalar ((toString n).toList ++ rest) = .ok (.int n, rest) := by
  simp only [safeInt] at hn
  cases n with
  | ofNat m =>
      have htext : (toString (Int.ofNat m)).toList = Nat.toDigits 10 m := by
        rw [← Nat.toList_repr]; rfl
      have hscan := scanUnsigned_toDigits (n := m) (by simp at hn; omega) false hr
      obtain ⟨d, ds, hds⟩ := List.exists_cons_of_ne_nil (Nat.toDigits_ne_nil (n := m) (b := 10))
      have hd : d.isDigit := digits_isDigit m d (by simp [hds])
      rw [hds] at hscan htext
      rw [htext, List.cons_append, scanScalar_of_digit hd]
      exact hscan
  | negSucc m =>
      have htext : (toString (Int.negSucc m)).toList = '-' :: Nat.toDigits 10 (m + 1) := by
        rw [← Nat.toList_repr]
        show ("-" ++ Nat.repr (m + 1)).toList = _
        simp
      have hscan := scanUnsigned_toDigits (n := m + 1) (by omega) true hr
      obtain ⟨d, ds, hds⟩ :=
        List.exists_cons_of_ne_nil (Nat.toDigits_ne_nil (n := m + 1) (b := 10))
      have hd : d.isDigit := digits_isDigit (m + 1) d (by simp [hds])
      rw [hds] at hscan htext
      rw [htext, List.cons_append, scanScalar]
      rw [List.cons_append, dropLiteral_infinity_of_digit hd]
      exact hscan

/-! ## Values -/

theorem joinComma_nil : joinComma [] = [] := rfl

theorem joinComma_singleton (x : List Char) : joinComma [x] = x := by simp [joinComma]

theorem joinComma_cons_cons (x y : List Char) (zs : List (List Char)) :
    joinComma (x :: y :: zs) = x ++ ',' :: joinComma (y :: zs) := by
  simp [joinComma, List.intercalate_cons_cons]

/-- The first character of a value's text is not blank and closes nothing. -/
structure ValueHead (c : Char) : Prop where
  not_ws : isWs c = false
  not_bracket : c ≠ ']'
  not_brace : c ≠ '\x7d'
  not_bom : c ≠ '\uFEFF'

theorem ValueHead.of_digit {d : Char} (hd : d.isDigit) : ValueHead d := by
  have hne : d ≠ ' ' ∧ d ≠ '\t' ∧ d ≠ '\n' ∧ d ≠ '\r' ∧ d ≠ ']' ∧ d ≠ '\x7d' ∧
      d ≠ '\uFEFF' := by
    refine ⟨?_, ?_, ?_, ?_, ?_, ?_, ?_⟩ <;> rintro rfl <;> exact absurd hd (by decide)
  obtain ⟨h₁, h₂, h₃, h₄, h₅, h₆, h₇⟩ := hne
  exact ⟨by simp [isWs, h₁, h₂, h₃, h₄], h₅, h₆, h₇⟩

theorem toString_int_head (n : Int) :
    ∃ c cs, (toString n).toList = c :: cs ∧ (c = '-' ∨ c.isDigit) := by
  cases n with
  | ofNat m =>
      obtain ⟨d, ds, hds⟩ := List.exists_cons_of_ne_nil (Nat.toDigits_ne_nil (n := m) (b := 10))
      refine ⟨d, ds, ?_, .inr (digits_isDigit m d (by simp [hds]))⟩
      rw [← hds, ← Nat.toList_repr]
      rfl
  | negSucc m => exact ⟨'-', (Nat.repr (m + 1)).toList, by show ("-" ++ _).toList = _; simp, .inl rfl⟩

theorem render_head {v : Json} (h : v.isSafe) : ∃ c cs, render v = c :: cs ∧ ValueHead c := by
  cases v with
  | null => exact ⟨_, _, rfl, by constructor <;> decide⟩
  | bool b => cases b <;> exact ⟨_, _, rfl, by constructor <;> decide⟩
  | float t => simp [Json.isSafe] at h
  | int n =>
      obtain ⟨c, cs, hcs, hc⟩ := toString_int_head n
      refine ⟨c, cs, hcs, ?_⟩
      rcases hc with rfl | hd
      · constructor <;> decide
      · exact .of_digit hd
  | str s => exact ⟨_, _, rfl, by constructor <;> decide⟩
  | arr xs => exact ⟨_, _, rfl, by constructor <;> decide⟩
  | obj ms => exact ⟨_, _, render_obj ms, by constructor <;> decide⟩

theorem skipWs_cons {c : Char} (h : isWs c = false) (cs : List Char) :
    skipWs (c :: cs) = c :: cs := by simp [skipWs, h]

theorem skipWs_render {v : Json} (h : v.isSafe) (rest : List Char) :
    skipWs (render v ++ rest) = render v ++ rest := by
  obtain ⟨c, cs, hcs, hc⟩ := render_head h
  rw [hcs]
  exact skipWs_cons hc.not_ws _

section

variable {hook : List (String × Json) → Py Json}

/-- What both hooks do to members with distinct keys: they make the dict. -/
def KeepsDistinct (hook : List (String × Json) → Py Json) : Prop :=
  ∀ ms : List (String × Json), (ms.map (·.1)).Nodup → hook ms = .ok (.obj ms)

theorem scanOnce_scalar {c : Char} (h : c ≠ '"' ∧ c ≠ '[' ∧ c ≠ '\x7b') (n : Nat)
    (cs : List Char) : scanOnce hook (n + 1) (c :: cs) = scanScalar (c :: cs) := by
  obtain ⟨h₁, h₂, h₃⟩ := h
  rw [scanOnce]
  · exact fun _ heq => h₁ (List.cons.inj heq).1
  · exact fun _ heq => h₂ (List.cons.inj heq).1
  · exact fun _ heq => h₃ (List.cons.inj heq).1

/-- The parser reads `v` back from its text, whatever may follow. -/
def ReadsBack (hook : List (String × Json) → Py Json) (v : Json) : Prop :=
  ∀ (n : Nat) (rest : List Char), 2 * (render v).length ≤ n → Follows rest →
    scanOnce hook n (render v ++ rest) = .ok (v.canon, rest)

theorem readsBack_int {n : Int} (hn : -safeInt ≤ n ∧ n ≤ safeInt) : ReadsBack hook (.int n) := by
  intro fuel rest hfuel hr
  obtain ⟨c, cs, hcs, hc⟩ := toString_int_head n
  have hne : c ≠ '"' ∧ c ≠ '[' ∧ c ≠ '\x7b' := by
    rcases hc with rfl | hd
    · decide
    · refine ⟨?_, ?_, ?_⟩ <;> rintro rfl <;> exact absurd hd (by decide)
  have hscan := scanScalar_int hn hr
  simp only [render] at hfuel ⊢
  rw [hcs] at hfuel hscan ⊢
  obtain ⟨m, rfl⟩ : ∃ m, fuel = m + 1 := ⟨fuel - 1, by simp at hfuel; omega⟩
  rw [List.cons_append, scanOnce_scalar hne]
  exact hscan

theorem readsBack_str (s : String) : ReadsBack hook (.str s) := by
  intro fuel rest hfuel hr
  obtain ⟨body, hbody, hscan⟩ := scanString_jsonString s rest
  have hpos : 0 < (jsonString s).length := by simp [jsonString]
  obtain ⟨m, rfl⟩ : ∃ m, fuel = m + 1 := ⟨fuel - 1, by simp only [render] at hfuel; omega⟩
  rw [render, hbody, scanOnce, hscan]
  simp [bind, Except.bind, pure, Except.pure, Json.canon]

theorem scanItems_ok {xs : List Json} (hne : xs ≠ []) (hsafe : ∀ x ∈ xs, x.isSafe)
    (h : ∀ x ∈ xs, ReadsBack hook x) {n : Nat} (rest : List Char)
    (hn : 2 * (joinComma (xs.map render)).length + 1 ≤ n) :
    scanItems hook n (joinComma (xs.map render) ++ ']' :: rest) =
      .ok (xs.map Json.canon, rest) := by
  induction xs generalizing n with
  | nil => exact absurd rfl hne
  | cons x xs ih =>
      obtain ⟨m, rfl⟩ : ∃ m, n = m + 1 := ⟨n - 1, by omega⟩
      have hx := h x (by simp)
      cases xs with
      | nil =>
          simp only [List.map_cons, List.map_nil, joinComma_singleton] at hn ⊢
          have hread := hx m (']' :: rest) (by omega) (follows_cons (by simp) rest)
          rw [scanItems, hread]
          rfl
      | cons y ys =>
          have hy : y.isSafe := hsafe y (by simp)
          simp only [List.map_cons, joinComma_cons_cons, List.length_append, List.length_cons]
            at hn ⊢
          have hread := hx m (',' :: (joinComma (render y :: ys.map render) ++ ']' :: rest))
            (by omega) (follows_cons (by simp) _)
          have hrest := ih (by simp) (fun z hz => hsafe z (by simp [hz]))
            (fun z hz => h z (by simp [hz])) (n := m) (by simp only [List.map_cons]; omega)
          simp only [List.map_cons] at hrest
          have hws : skipWs (joinComma (render y :: ys.map render) ++ ']' :: rest) =
              joinComma (render y :: ys.map render) ++ ']' :: rest := by
            obtain ⟨c, cs, hcs, hc⟩ := render_head hy
            cases ys <;> simp [joinComma_singleton, joinComma_cons_cons, hcs,
              skipWs_cons hc.not_ws]
          rw [scanItems, List.append_assoc, List.cons_append, hread]
          simp only [bind, Except.bind, skipWs_cons (show isWs ',' = false by decide), hws, hrest,
            pure, Except.pure]

/-- The text of one member of an object. -/
def renderMember (m : String × Json) : List Char := jsonString m.1 ++ ':' :: render m.2

theorem skipWs_joinMembers {m : String × Json} {ms : List (String × Json)} (rest : List Char) :
    skipWs (joinComma ((m :: ms).map renderMember) ++ rest) =
      joinComma ((m :: ms).map renderMember) ++ rest := by
  have hquote : isWs '"' = false := by decide
  cases ms <;>
    simp [joinComma_singleton, joinComma_cons_cons, renderMember, jsonString, skipWs_cons hquote]

theorem scanMembers_ok {ms : List (String × Json)} (hne : ms ≠ [])
    (hsafe : ∀ m ∈ ms, m.2.isSafe) (h : ∀ m ∈ ms, ReadsBack hook m.2) {n : Nat}
    (rest : List Char) (hn : 2 * (joinComma (ms.map renderMember)).length + 1 ≤ n) :
    scanMembers hook n (joinComma (ms.map renderMember) ++ '\x7d' :: rest) =
      .ok (ms.map fun m => (m.1, m.2.canon), rest) := by
  have hcolon : isWs ':' = false := by decide
  have hcomma : isWs ',' = false := by decide
  have hbrace : isWs '\x7d' = false := by decide
  induction ms generalizing n with
  | nil => exact absurd rfl hne
  | cons m ms ih =>
      obtain ⟨k, x⟩ := m
      obtain ⟨fuel, rfl⟩ : ∃ fuel, n = fuel + 1 := ⟨n - 1, by omega⟩
      have hx : x.isSafe := hsafe (k, x) (by simp)
      have hread := h (k, x) (by simp)
      cases ms with
      | nil =>
          simp only [List.map_cons, List.map_nil, joinComma_singleton, renderMember,
            List.length_append, List.length_cons] at hn ⊢
          have hval := hread fuel ('\x7d' :: rest) (by simp only; omega) (follows_cons (by simp) rest)
          obtain ⟨body, hbody, hkey⟩ :=
            scanString_jsonString k (':' :: (render x ++ '\x7d' :: rest))
          rw [List.append_assoc, List.cons_append, hbody, scanMembers, hkey]
          simp only at hval
          simp [bind, Except.bind, skipWs_cons hcolon, skipWs_render hx, hval,
            skipWs_cons hbrace, pure, Except.pure]
      | cons m' ms =>
          simp only [List.map_cons (l := ms), List.map_cons, joinComma_cons_cons,
            List.length_append, List.length_cons, renderMember] at hn
          have hval := hread fuel
            (',' :: (joinComma ((m' :: ms).map renderMember) ++ '\x7d' :: rest))
            (by simp only; omega) (follows_cons (by simp) _)
          have hrest := ih (by simp) (fun z hz => hsafe z (by simp [hz]))
            (fun z hz => h z (by simp [hz])) (n := fuel)
            (by simp only [List.map_cons, renderMember]; omega)
          obtain ⟨body, hbody, hkey⟩ := scanString_jsonString k
            (':' :: (render x ++ ',' :: (joinComma ((m' :: ms).map renderMember) ++ '\x7d' :: rest)))
          have htext : joinComma (((k, x) :: m' :: ms).map renderMember) ++ '\x7d' :: rest =
              '"' :: body := by
            rw [← hbody, List.map_cons, List.map_cons, joinComma_cons_cons]
            simp [renderMember]
          rw [htext, scanMembers, hkey]
          simp only at hval
          simp only [bind, Except.bind, skipWs_cons hcolon, skipWs_render hx, hval,
            skipWs_cons hcomma, skipWs_joinMembers, hrest, pure, Except.pure,
            String.ofList_toList]
          rfl

theorem readsBack_arr {xs : List Json} (hsafe : ∀ x ∈ xs, x.isSafe)
    (h : ∀ x ∈ xs, ReadsBack hook x) : ReadsBack hook (.arr xs) := by
  intro n rest hn _
  simp only [render, renderItems_eq, List.length_cons, List.length_append] at hn ⊢
  obtain ⟨fuel, rfl⟩ : ∃ fuel, n = fuel + 1 := ⟨n - 1, by omega⟩
  cases xs with
  | nil => rfl
  | cons x xs =>
      have hitems := scanItems_ok (by simp) hsafe h (n := fuel) rest
        (by simp only [List.length_nil] at hn; omega)
      obtain ⟨c, cs, hcs, hc⟩ := render_head (hsafe x (by simp))
      obtain ⟨ds, hds⟩ : ∃ ds, joinComma ((x :: xs).map render) ++ ']' :: rest = c :: ds := by
        cases xs <;> simp [joinComma_singleton, joinComma_cons_cons, hcs]
      simp only [List.cons_append, List.append_assoc, List.nil_append]
      rw [hds] at hitems ⊢
      rw [scanOnce, skipWs_cons hc.not_ws]
      simp [hc.not_bracket, hitems, bind, Except.bind, pure, Except.pure]

theorem readsBack_obj (hhook : KeepsDistinct hook) {ms : List (String × Json)}
    (hn : (ms.map (·.1)).Nodup) (hsafe : ∀ m ∈ ms, m.2.isSafe)
    (h : ∀ m ∈ ms, ReadsBack hook m.2) : ReadsBack hook (.obj ms) := by
  intro n rest hfuel _
  have hmem : ∀ m, m ∈ sortMembers ms ↔ m ∈ ms := fun m => (sortMembers_perm ms).mem_iff
  have hmake : hook ((sortMembers ms).map fun m => (m.1, m.2.canon)) =
      .ok (Json.canon (.obj ms)) := by
    rw [canon_obj, ← map_sortMembers Json.canon]
    apply hhook
    simpa [Function.comp_def] using sortMembers_keys_nodup hn
  have htext : render (.obj ms) =
      '\x7b' :: (joinComma ((sortMembers ms).map renderMember) ++ ['\x7d']) := render_obj ms
  rw [htext] at hfuel ⊢
  simp only [List.length_cons, List.length_append] at hfuel
  obtain ⟨fuel, rfl⟩ : ∃ fuel, n = fuel + 1 := ⟨n - 1, by omega⟩
  simp only [List.cons_append, List.append_assoc, List.nil_append]
  cases hs : sortMembers ms with
  | nil =>
      rw [hs] at hmake
      simp only [List.map_nil] at hmake ⊢
      rw [scanOnce, joinComma_nil, List.nil_append, skipWs_cons (by decide)]
      simp [hmake, bind, Except.bind, pure, Except.pure]
  | cons m ms' =>
      rw [hs] at hmem hfuel hmake
      have hmembers := scanMembers_ok (List.cons_ne_nil m ms')
        (fun z hz => hsafe z ((hmem z).mp hz)) (fun z hz => h z ((hmem z).mp hz)) (n := fuel) rest
        (by simp only [List.length_nil] at hfuel; omega)
      obtain ⟨ds, hds⟩ : ∃ ds,
          joinComma ((m :: ms').map renderMember) ++ '\x7d' :: rest = '"' :: ds := by
        cases ms' <;>
          simp [joinComma_singleton, joinComma_cons_cons, renderMember, jsonString]
      rw [hds] at hmembers ⊢
      rw [scanOnce, skipWs_cons (by decide)]
      show (do
        let scanned ← scanMembers hook fuel ('"' :: ds)
        return (← hook scanned.1, scanned.2)) = _
      simp only [hmembers, hmake, bind, Except.bind, pure, Except.pure]

theorem readsBack (hhook : KeepsDistinct hook) {v : Json} (h : v.isSafe) : ReadsBack hook v := by
  induction v using Json.ind with
  | null =>
      intro n rest hn _
      obtain ⟨m, rfl⟩ : ∃ m, n = m + 1 := ⟨n - 1, by simp [render] at hn; omega⟩
      rfl
  | bool b =>
      intro n rest hn _
      obtain ⟨m, rfl⟩ : ∃ m, n = m + 1 := ⟨n - 1, by cases b <;> simp [render] at hn <;> omega⟩
      cases b <;> rfl
  | float t => simp [Json.isSafe] at h
  | int n => exact readsBack_int (by simpa [Json.isSafe] using h)
  | str s => exact readsBack_str s
  | arr xs ih =>
      rw [isSafe_arr] at h
      exact readsBack_arr h fun x hx => ih x hx (h x hx)
  | obj ms ih =>
      rw [isSafe_obj] at h
      exact readsBack_obj hhook h.1 h.2 fun m hm => ih m hm (h.2 m hm)

theorem parseText_render (hhook : KeepsDistinct hook) {v : Json} (h : v.isSafe) :
    parseText hook (String.ofList (render v)) = .ok v.canon := by
  obtain ⟨c, cs, hcs, hc⟩ := render_head h
  have hread := readsBack hhook h (2 * (render v).length + 1) [] (by omega) follows_nil
  rw [List.append_nil, hcs] at hread
  rw [parseText, String.toList_ofList, hcs]
  split
  · next heq => exact absurd (List.cons.inj heq).1 hc.not_bom
  · rw [skipWs_cons hc.not_ws, hread]
    rfl

end

/-! ## The two hooks -/

theorem firstDuplicate_eq_none {ms : List (String × Json)} (hn : (ms.map (·.1)).Nodup)
    {seen : List String} (hseen : ∀ k ∈ seen, k ∉ ms.map (·.1)) :
    firstDuplicate seen ms = none := by
  induction ms generalizing seen with
  | nil => rfl
  | cons m ms ih =>
      obtain ⟨k, x⟩ := m
      simp only [List.map_cons, List.nodup_cons] at hn
      have hk : k ∉ seen := fun hmem => hseen k hmem (by simp)
      rw [firstDuplicate, if_neg hk]
      refine ih hn.2 fun l hl => ?_
      rcases List.mem_cons.mp hl with rfl | hl
      · exact hn.1
      · exact fun hmem => hseen l hl (by simp [hmem])

theorem keepsDistinct_strictObject : KeepsDistinct strictObject := by
  intro ms hn
  simp [strictObject, firstDuplicate_eq_none hn, pure, Except.pure]

theorem keepsDistinct_plainObject : KeepsDistinct plainObject := by
  intro ms hn
  simp only [plainObject, Dict.ofPairs_eq_self hn, pure, Except.pure]

/-! ## The bytes -/

theorem jcs_eq {v : Json} (h : v.isSafe) : jcs v = .ok (String.ofList (render v)).toUTF8 := by
  rw [jcs, encode_eq_render h]
  rfl

theorem fromUTF8_toUTF8 (s : String) : String.fromUTF8? s.toUTF8 = some s := by
  have h : s.toUTF8.IsValidUTF8 := s.isValidUTF8
  simp only [String.fromUTF8?, h, dite_true]
  rfl

theorem loads_jcs (lib : Stdlib) {v : Json} (h : v.isSafe) (hd : v.isDict)
    (hsize : (String.ofList (render v)).toUTF8.size ≤ maxInputBytes) :
    loads lib (String.ofList (render v)).toUTF8 = .ok v.canon := by
  cases v with
  | obj ms =>
      simp only [loads, Nat.not_lt.mpr hsize, fromUTF8_toUTF8, if_false,
        parseText_render keepsDistinct_strictObject h, canon_obj]
      rfl
  | _ => cases hd

end TrwMcp.Handoff

import TrwMcp.Intent.Dumps
import TrwMcp.Handoff.RoundTrip

/-!
# Reading what `json.dumps` wrote

* `scanString_asciiString` — a written string is read back, whatever characters it has.
* `dumps_injective` — two values with one text are one value up to formatting: the order of
  members, and the spelling of a float.
* `parseText_flat` — an object of strings and integers is read back, with any white space
  `json.dumps` may put between its members.
-/

namespace TrwMcp.Intent

open Handoff Lib

/-! ## Strings -/

theorem hexUnit_unit {n : Nat} (hn : n < 0x10000) (rest : List Char) :
    hexUnit (hexDigit (n / 4096) :: hexDigit (n / 256 % 16) :: hexDigit (n / 16 % 16) ::
      hexDigit (n % 16) :: rest) = some (n, rest) := by
  have h₁ := hexValue_hexDigit (n / 4096) (by omega)
  have h₂ := hexValue_hexDigit (n / 256 % 16) (by omega)
  have h₃ := hexValue_hexDigit (n / 16 % 16) (by omega)
  have h₄ := hexValue_hexDigit (n % 16) (by omega)
  have hval : ((n / 4096 * 16 + n / 256 % 16) * 16 + n / 16 % 16) * 16 + n % 16 = n := by omega
  simp [hexUnit, h₁, h₂, h₃, h₄, hval]

theorem lexeme_unicodeEscape {n : Nat} (hn : n < 0x10000) (rest : List Char) :
    lexeme (unicodeEscape n ++ rest) = .unit n rest := by
  simp [unicodeEscape, lexeme, hexUnit_unit hn]

theorem scanString_asciiChar (n : Nat) (c : Char) (rest : List Char) :
    scanString (n + 1) (asciiChar c ++ rest) = do
      let (s, rest) ← scanString n rest
      return (c :: s, rest) := by
  have hvalid := char_toNat_valid c
  by_cases hquote : c = '"'
  · subst hquote; rfl
  by_cases hback : c = '\\'
  · subst hback; rfl
  by_cases hn : c = '\n'
  · subst hn; rfl
  by_cases hr : c = '\r'
  · subst hr; rfl
  by_cases ht : c = '\t'
  · subst ht; rfl
  by_cases hb : c.toNat = 8
  · rw [char_eq_of_toNat hb]; rfl
  by_cases hf : c.toNat = 12
  · rw [char_eq_of_toNat hf]; rfl
  by_cases hprint : 32 ≤ c.toNat ∧ c.toNat ≤ 126
  · have hlex : lexeme (c :: rest) = .char c rest := by
      have hctl : ¬ c.toNat < 32 := by omega
      simp [lexeme, hquote, hback, hctl]
    have htext : asciiChar c = [c] := by
      simp [asciiChar, hquote, hback, hn, hr, ht, hb, hf, hprint]
    rw [htext, List.singleton_append, scanString, hlex]
  · have htext : asciiChar c = (utf16Units c).flatMap unicodeEscape := by
      simp [asciiChar, hquote, hback, hn, hr, ht, hb, hf, hprint]
    rw [htext, utf16Units]
    split
    · next hbmp =>
      have hhigh : isHigh c.toNat = false := by simp [isHigh]; omega
      have hlow : isLow c.toNat = false := by simp [isLow]; omega
      simp only [List.flatMap_singleton]
      rw [scanString, lexeme_unicodeEscape hbmp]
      simp [hhigh, hlow, Char.ofNat_toNat]
    · next hastral =>
      -- a high surrogate, then the low one it announces
      have hhigh : isHigh (0xD800 + (c.toNat - 0x10000) / 0x400) = true := by
        simp [isHigh]; omega
      have hlow : isLow (0xDC00 + (c.toNat - 0x10000) % 0x400) = true := by
        simp [isLow]; omega
      have hval : 0x10000 + (0xD800 + (c.toNat - 0x10000) / 0x400 - 0xD800) * 0x400 +
          (0xDC00 + (c.toNat - 0x10000) % 0x400 - 0xDC00) = c.toNat := by omega
      simp only [List.flatMap_cons, List.flatMap_nil, List.append_nil, List.append_assoc]
      rw [scanString, lexeme_unicodeEscape (by omega)]
      simp only [hhigh, if_true, lexeme_unicodeEscape (show 0xDC00 +
        (c.toNat - 0x10000) % 0x400 < 0x10000 by omega), hlow, hval, Char.ofNat_toNat]

theorem scanString_ascii {s : List Char} {n : Nat} (hn : s.length < n) (rest : List Char) :
    scanString n (s.flatMap asciiChar ++ '"' :: rest) = .ok (s, rest) := by
  induction s generalizing n with
  | nil =>
      obtain ⟨m, rfl⟩ : ∃ m, n = m + 1 := ⟨n - 1, by simp at hn; omega⟩
      rfl
  | cons c s ih =>
      obtain ⟨m, rfl⟩ : ∃ m, n = m + 1 := ⟨n - 1, by omega⟩
      rw [List.flatMap_cons, List.append_assoc, scanString_asciiChar,
        ih (by simpa using hn)]
      rfl

theorem asciiChar_ne_nil (c : Char) : asciiChar c ≠ [] := by
  unfold asciiChar
  repeat' split
  all_goals try simp
  simp only [utf16Units]
  split <;> simp [unicodeEscape]

theorem length_le_flatMap_asciiChar (s : List Char) :
    s.length ≤ (s.flatMap asciiChar).length := by
  induction s with
  | nil => simp
  | cons c s ih =>
      have hc := List.length_pos_iff.mpr (asciiChar_ne_nil c)
      simp only [List.flatMap_cons, List.length_append, List.length_cons]
      omega

theorem scanString_asciiString (k : String) (rest : List Char) :
    ∃ body, asciiString k ++ rest = '"' :: body ∧
      scanString body.length body = .ok (k.toList, rest) := by
  refine ⟨k.toList.flatMap asciiChar ++ '"' :: rest, by simp [asciiString], ?_⟩
  apply scanString_ascii
  have := length_le_flatMap_asciiChar k.toList
  simp only [List.length_append, List.length_cons]
  omega

theorem asciiString_append_inj {k l : String} {r s : List Char}
    (h : asciiString k ++ r = asciiString l ++ s) : k = l ∧ r = s := by
  obtain ⟨body, hbody, hscan⟩ := scanString_asciiString k r
  obtain ⟨body', hbody', hscan'⟩ := scanString_asciiString l s
  rw [hbody, hbody'] at h
  obtain rfl := (List.cons.inj h).2
  have hsame := Except.ok.inj (hscan.symm.trans hscan')
  exact ⟨String.toList_inj.mp (congrArg Prod.fst hsame), congrArg Prod.snd hsame⟩

/-! ## One text, one value -/

section

variable (lib : Stdlib)

mutual

/-- A value up to formatting: members in key order, a float by its `repr`. -/
@[grind =] def normal : Json → Json
  | .float text => .float (String.ofList (floatText lib text))
  | .arr xs => .arr (normalItems xs)
  | .obj ms => .obj (sortByKey (normalMembers ms))
  | v => v

@[grind =] def normalItems : List Json → List Json
  | [] => []
  | x :: xs => normal x :: normalItems xs

@[grind =] def normalMembers : List (String × Json) → List (String × Json)
  | [] => []
  | (k, x) :: ms => (k, normal x) :: normalMembers ms

end

/-- What the text of a float looks like: it has no separator, bracket or quote, and is neither
empty nor the text of an integer or of a literal. -/
structure FloatTexts : Prop where
  nonempty : ∀ t, floatText lib t ≠ []
  plain : ∀ t, ∀ c ∈ floatText lib t, c ∉ [',', ']', '\x7d', '"', '[', '\x7b', 'u', 's']
  notInt : ∀ t (n : Int), floatText lib t ≠ (toString n).toList

variable (sep : Separators)

theorem dumpsItems_eq (xs : List Json) : dumpsItems lib sep xs = xs.map (dumps lib sep) := by
  induction xs with
  | nil => rfl
  | cons x xs ih => simp [dumpsItems, ih]

theorem dumpsMembers_eq (ms : List (String × Json)) :
    dumpsMembers lib sep ms = ms.map fun m => (m.1, dumps lib sep m.2) := by
  induction ms with
  | nil => rfl
  | cons m ms ih => simp [dumpsMembers, ih]

theorem normalItems_eq (xs : List Json) : normalItems lib xs = xs.map (normal lib) := by
  induction xs with
  | nil => rfl
  | cons x xs ih => simp [normalItems, ih]

theorem normalMembers_eq (ms : List (String × Json)) :
    normalMembers lib ms = ms.map fun m => (m.1, normal lib m.2) := by
  induction ms with
  | nil => rfl
  | cons m ms ih => simp [normalMembers, ih]

theorem sortByKey_map {α β : Type} (f : α → β) (ms : List (String × α)) :
    sortByKey (ms.map fun m => (m.1, f m.2)) = (sortByKey ms).map fun m => (m.1, f m.2) := by
  have hsort := List.map_insertionSort (fun m n : String × α => m.1 ≤ n.1)
    (fun m n : String × β => m.1 ≤ n.1) (fun m => (m.1, f m.2)) ms fun _ _ _ _ => Iff.rfl
  exact hsort.symm

/-- The text of one member. -/
def dumpsMember (m : String × Json) : List Char :=
  asciiString m.1 ++ sep.key ++ dumps lib sep m.2

theorem dumps_arr (xs : List Json) :
    dumps lib sep (.arr xs) =
      '[' :: (sep.item.intercalate (xs.map (dumps lib sep)) ++ [']']) := by
  rw [dumps, dumpsItems_eq]

theorem dumps_obj (ms : List (String × Json)) :
    dumps lib sep (.obj ms) =
      '\x7b' :: (sep.item.intercalate ((sortByKey ms).map (dumpsMember lib sep)) ++ ['\x7d']) := by
  rw [dumps, dumpsMembers_eq, sortByKey_map (dumps lib sep), List.map_map]
  rfl

theorem mem_sortByKey {α : Type} {ms : List (String × α)} {m : String × α} :
    m ∈ sortByKey ms ↔ m ∈ ms := List.mem_insertionSort _

end

section

variable {lib : Stdlib}

theorem span_inj {p : Char → Bool} {u v r s : List Char} (hu : ∀ c ∈ u, p c = true)
    (hv : ∀ c ∈ v, p c = true) (hr : ∀ c ∈ r.head?, p c = false)
    (hs : ∀ c ∈ s.head?, p c = false) (h : u ++ r = v ++ s) : u = v ∧ r = s := by
  have hstop : ∀ t : List Char, (∀ c ∈ t.head?, p c = false) → t.takeWhile p = [] := by
    intro t ht
    cases t with
    | nil => rfl
    | cons c t => simp [ht c rfl]
  have hcut := congrArg (List.takeWhile p) h
  rw [List.takeWhile_append_of_pos hu, List.takeWhile_append_of_pos hv, hstop r hr, hstop s hs,
    List.append_nil, List.append_nil] at hcut
  subst hcut
  exact ⟨rfl, List.append_cancel_left h⟩

/-- The values that are not strings, lists or dicts. -/
def isAtom : Json → Bool
  | .null | .bool _ | .int _ | .float _ => true
  | _ => false

/-- A character no separator, bracket or quote. -/
def isAtomChar (c : Char) : Bool := c ∉ [',', ']', '\x7d', '"', '[', '\x7b']

theorem int_text (n : Int) :
    (∃ m : Nat, n = m ∧ (toString n).toList = Nat.toDigits 10 m) ∨
      ∃ m : Nat, n = Int.negSucc m ∧ (toString n).toList = '-' :: Nat.toDigits 10 (m + 1) := by
  cases n with
  | ofNat m =>
      left
      refine ⟨m, rfl, ?_⟩
      rw [← Nat.toList_repr]
      rfl
  | negSucc m =>
      right
      refine ⟨m, rfl, ?_⟩
      rw [← Nat.toList_repr]
      show ("-" ++ Nat.repr (m + 1)).toList = _
      simp

theorem int_text_chars (n : Int) : ∀ c ∈ (toString n).toList, c = '-' ∨ c.isDigit := by
  intro c hc
  rcases int_text n with ⟨m, -, htext⟩ | ⟨m, -, htext⟩
  · exact .inr (digits_isDigit m c (htext ▸ hc))
  · rw [htext, List.mem_cons] at hc
    exact hc.imp id (digits_isDigit (m + 1) c)

theorem int_text_ne_nil (n : Int) : (toString n).toList ≠ [] := by
  rcases int_text n with ⟨m, -, htext⟩ | ⟨m, -, htext⟩
  · rw [htext]
    exact Nat.toDigits_ne_nil
  · rw [htext]
    exact List.cons_ne_nil _ _

theorem toDigits_inj {m n : Nat} (h : Nat.toDigits 10 m = Nat.toDigits 10 n) : m = n := by
  rw [← @Nat.ofDigitChars_ten_toDigits m, h, Nat.ofDigitChars_ten_toDigits]

theorem int_text_inj {m n : Int} (h : (toString m).toList = (toString n).toList) : m = n := by
  have hminus : ∀ a b : Nat, Nat.toDigits 10 a ≠ '-' :: Nat.toDigits 10 b := by
    intro a b heq
    have := digits_isDigit a '-' (by rw [heq]; simp)
    exact absurd this (by decide)
  rcases int_text m with ⟨a, rfl, ha⟩ | ⟨a, rfl, ha⟩ <;>
    rcases int_text n with ⟨b, rfl, hb⟩ | ⟨b, rfl, hb⟩ <;> rw [ha, hb] at h
  · rw [toDigits_inj h]
  · exact absurd h (hminus _ _)
  · exact absurd h.symm (hminus _ _)
  · have := toDigits_inj (List.cons.inj h).2
    rw [show a = b by omega]

theorem isAtomChar_of_int {n : Int} : ∀ c ∈ (toString n).toList, isAtomChar c = true := by
  intro c hc
  rcases int_text_chars n c hc with rfl | hd
  · decide
  · have hne : ∀ d, d.isDigit = false → c ≠ d := by
      rintro d hdigit rfl
      rw [hd] at hdigit
      cases hdigit
    simp [isAtomChar, hne ',' (by decide), hne ']' (by decide), hne '\x7d' (by decide),
      hne '"' (by decide), hne '[' (by decide), hne '\x7b' (by decide)]

theorem atom_chars (hlib : FloatTexts lib) {v : Json} (hv : isAtom v = true) :
    dumps lib compact v ≠ [] ∧ ∀ c ∈ dumps lib compact v, isAtomChar c = true := by
  cases v with
  | null => simp [dumps, isAtomChar]
  | bool b => cases b <;> simp [dumps, isAtomChar]
  | int n => exact ⟨int_text_ne_nil n, isAtomChar_of_int⟩
  | float t =>
      refine ⟨hlib.nonempty t, ?_⟩
      intro c hc
      have hplain := hlib.plain t c hc
      simp only [List.mem_cons, not_or] at hplain
      simp [isAtomChar, hplain]
  | str s => cases hv
  | arr xs => cases hv
  | obj ms => cases hv

theorem atom_inj (hlib : FloatTexts lib) {v w : Json} (hv : isAtom v = true)
    (hw : isAtom w = true) (h : dumps lib compact v = dumps lib compact w) :
    normal lib v = normal lib w := by
  -- the letters `u` and `s` tell the literals from every number
  have hint : ∀ (n : Int) c, c ∈ ['u', 's'] → c ∉ (toString n).toList := by
    intro n c hc hmem
    rcases int_text_chars n c hmem with rfl | hd
    · exact absurd hc (by decide)
    · simp only [List.mem_cons, List.not_mem_nil, or_false] at hc
      rcases hc with rfl | rfl <;> exact absurd hd (by decide)
  have hfloat : ∀ t c, c ∈ ['u', 's'] → c ∉ floatText lib t := by
    intro t c hc hmem
    have hplain := hlib.plain t c hmem
    simp only [List.mem_cons, List.not_mem_nil, or_false] at hc
    rcases hc with rfl | rfl <;> exact hplain (by decide)
  have hliteral : ∀ (u : List Char) w, isAtom w = true → 'u' ∈ u ∨ 's' ∈ u →
      u = dumps lib compact w → w = .null ∨ ∃ b, w = .bool b := by
    intro u w hw hu htext
    cases w with
    | null => exact .inl rfl
    | bool b => exact .inr ⟨b, rfl⟩
    | int n =>
        rw [htext] at hu
        rcases hu with hu | hu
        · exact absurd hu (hint n 'u' (by simp))
        · exact absurd hu (hint n 's' (by simp))
    | float t =>
        rw [htext] at hu
        rcases hu with hu | hu
        · exact absurd hu (hfloat t 'u' (by simp))
        · exact absurd hu (hfloat t 's' (by simp))
    | str s => cases hw
    | arr xs => cases hw
    | obj ms => cases hw
  have hsplit : ∀ w, (w = .null ∨ ∃ b, w = Json.bool b) →
      'u' ∈ dumps lib compact w ∨ 's' ∈ dumps lib compact w := by
    rintro w (rfl | ⟨b, rfl⟩)
    · left; simp [dumps]
    · cases b
      · right; simp [dumps]
      · left; simp [dumps]
  by_cases hlit : v = .null ∨ ∃ b, v = .bool b
  · have hlit' := hliteral _ w hw (hsplit v hlit) h
    rcases hlit with rfl | ⟨b, rfl⟩ <;> rcases hlit' with rfl | ⟨b', rfl⟩
    · rfl
    · cases b' <;> simp [dumps] at h
    · cases b <;> simp [dumps] at h
    · cases b <;> cases b' <;> simp [dumps] at h <;> rfl
  · have hlit' : ¬ (w = .null ∨ ∃ b, w = .bool b) := fun hw' =>
      hlit (hliteral _ v hv (hsplit w hw') h.symm)
    cases v with
    | null => simp at hlit
    | bool b => simp at hlit
    | int m =>
        cases w with
        | null => simp at hlit'
        | bool b => simp at hlit'
        | int n => rw [int_text_inj h]
        | float t => exact absurd h.symm (hlib.notInt t m)
        | str s => cases hw
        | arr xs => cases hw
        | obj ms => cases hw
    | float t =>
        cases w with
        | null => simp at hlit'
        | bool b => simp at hlit'
        | int n => exact absurd h (hlib.notInt t n)
        | float t' =>
            have htext : floatText lib t = floatText lib t' := h
            rw [normal, normal, htext]
        | str s => cases hw
        | arr xs => cases hw
        | obj ms => cases hw
    | str s => cases hv
    | arr xs => cases hv
    | obj ms => cases hv

/-- The characters the text of a value can begin with. -/
def leads : Json → Char → Bool
  | .str _, c => c == '"'
  | .arr _, c => c == '['
  | .obj _, c => c == '\x7b'
  | _, c => isAtomChar c

theorem dumps_head (hlib : FloatTexts lib) (v : Json) :
    ∃ c cs, dumps lib compact v = c :: cs ∧ leads v c = true := by
  have hatom : ∀ v, isAtom v = true →
      ∃ c cs, dumps lib compact v = c :: cs ∧ isAtomChar c = true := by
    intro v hv
    obtain ⟨hne, hchars⟩ := atom_chars hlib hv
    obtain ⟨c, cs, htext⟩ := List.exists_cons_of_ne_nil hne
    exact ⟨c, cs, htext, hchars c (by simp [htext])⟩
  cases v with
  | null => exact hatom _ rfl
  | bool b => exact hatom _ rfl
  | int n => exact hatom _ rfl
  | float t => exact hatom _ rfl
  | str s => exact ⟨_, _, rfl, rfl⟩
  | arr xs => exact ⟨_, _, dumps_arr lib compact xs, rfl⟩
  | obj ms => exact ⟨_, _, dumps_obj lib compact ms, rfl⟩

/-- What a text determines, whatever separator follows it. -/
def Determines {α β : Type} (text : α → List Char) (key : α → β) (x : α) : Prop :=
  ∀ y r s, Follows r → Follows s → text x ++ r = text y ++ s → key x = key y ∧ r = s

/-- What follows an item of a list: the closing bracket, or a comma and the other items. -/
def tailText {α : Type} (text : α → List Char) (close : Char) (xs : List α) (r : List Char) :
    List Char :=
  match xs with
  | [] => close :: r
  | x :: xs => ',' :: ([','].intercalate ((x :: xs).map text) ++ close :: r)

theorem intercalate_tailText {α : Type} (text : α → List Char) (close : Char) (x : α)
    (xs : List α) (r : List Char) :
    [','].intercalate ((x :: xs).map text) ++ close :: r =
      text x ++ tailText text close xs r := by
  cases xs with
  | nil => simp [tailText]
  | cons y ys => simp [tailText, List.intercalate_cons_cons]

theorem follows_tailText {α : Type} (text : α → List Char) {close : Char}
    (hclose : close = ']' ∨ close = '\x7d') (xs : List α) (r : List Char) :
    Follows (tailText text close xs r) := by
  cases xs with
  | nil => exact follows_cons (.inr hclose) _
  | cons y ys => exact follows_cons (.inl rfl) _

theorem intercalate_inj {α β : Type} {text : α → List Char} {key : α → β} {close : Char}
    (hclose : close = ']' ∨ close = '\x7d') (hhead : ∀ x, ∃ c cs, text x = c :: cs ∧ c ≠ close)
    {xs : List α} (hx : ∀ x ∈ xs, Determines text key x) {ys : List α} {r s : List Char}
    (h : [','].intercalate (xs.map text) ++ close :: r =
      [','].intercalate (ys.map text) ++ close :: s) : xs.map key = ys.map key ∧ r = s := by
  have hempty : ∀ (z : α) zs (t u : List Char),
      close :: t ≠ [','].intercalate ((z :: zs).map text) ++ close :: u := by
    intro z zs t u heq
    obtain ⟨c, cs, htext, hne⟩ := hhead z
    rw [intercalate_tailText, htext] at heq
    exact hne (List.cons.inj heq).1.symm
  induction xs generalizing ys with
  | nil =>
      cases ys with
      | nil => exact ⟨rfl, (List.cons.inj h).2⟩
      | cons y ys => exact absurd h (hempty y ys r s)
  | cons x xs ih =>
      cases ys with
      | nil => exact absurd h.symm (hempty x xs s r)
      | cons y ys =>
          rw [intercalate_tailText, intercalate_tailText] at h
          obtain ⟨hkey, htail⟩ := hx x (by simp) y _ _ (follows_tailText text hclose xs r)
            (follows_tailText text hclose ys s) h
          have hcomma : ∀ t u : List Char, close :: t ≠ ',' :: u := by
            rintro t u heq
            have := (List.cons.inj heq).1
            rcases hclose with rfl | rfl <;> exact absurd this (by decide)
          cases xs with
          | nil =>
              cases ys with
              | nil => exact ⟨by simp [hkey], (List.cons.inj htail).2⟩
              | cons z ys => exact absurd htail (hcomma _ _)
          | cons x' xs =>
              cases ys with
              | nil => exact absurd htail.symm (hcomma _ _)
              | cons y' ys =>
                  obtain ⟨hkeys, hrest⟩ := ih (fun z hz => hx z (List.mem_cons_of_mem _ hz))
                    (List.cons.inj htail).2
                  exact ⟨congrArg₂ List.cons hkey hkeys, hrest⟩

/-- A value's compact text, with whatever separator follows, determines the value up to
formatting. -/
theorem dumps_determines (hlib : FloatTexts lib) (v : Json) :
    Determines (dumps lib compact) (normal lib) v := by
  have hstop : ∀ t, Follows t → ∀ c ∈ t.head?, isAtomChar c = false := by
    intro t ht c hc
    rcases ht c hc with rfl | rfl | rfl <;> decide
  -- two texts with one first character are of one kind
  have hkind : ∀ v w r s, dumps lib compact v ++ r = dumps lib compact w ++ s →
      isAtom v = isAtom w := by
    intro v w r s h
    obtain ⟨c, cs, hv, hc⟩ := dumps_head hlib v
    obtain ⟨d, ds, hw, hd⟩ := dumps_head hlib w
    rw [hv, hw, List.cons_append, List.cons_append] at h
    obtain rfl := (List.cons.inj h).1
    have hsplit : ∀ u, leads u c = true → isAtom u = isAtomChar c := by
      intro u hu
      cases u <;> simp only [leads, beq_iff_eq] at hu <;> first | exact hu.symm | (subst hu; rfl)
    rw [hsplit v hc, hsplit w hd]
  have hatom : ∀ v, isAtom v = true → Determines (dumps lib compact) (normal lib) v := by
    intro v hv w r s hr hs h
    have hw : isAtom w = true := (hkind v w r s h) ▸ hv
    obtain ⟨htext, hrest⟩ := span_inj (atom_chars hlib hv).2 (atom_chars hlib hw).2
      (hstop r hr) (hstop s hs) h
    exact ⟨atom_inj hlib hv hw htext, hrest⟩
  induction v using Json.ind with
  | null => exact hatom _ rfl
  | bool b => exact hatom _ rfl
  | int n => exact hatom _ rfl
  | float t => exact hatom _ rfl
  | str k =>
      intro w r s hr hs h
      obtain ⟨d, ds, hw, hd⟩ := dumps_head hlib w
      have hquote : '"' = d := by
        rw [hw] at h
        exact (List.cons.inj h).1
      cases w with
      | str l =>
          obtain ⟨rfl, hrest⟩ := asciiString_append_inj (h : asciiString k ++ r = asciiString l ++ s)
          exact ⟨rfl, hrest⟩
      | _ =>
          subst hquote
          simp [leads, isAtomChar] at hd
  | arr xs ih =>
      intro w r s hr hs h
      obtain ⟨d, ds, hw, hd⟩ := dumps_head hlib w
      have hbracket : '[' = d := by
        rw [hw, dumps_arr] at h
        exact (List.cons.inj h).1
      cases w with
      | arr ys =>
          rw [dumps_arr, dumps_arr, List.cons_append, List.cons_append] at h
          have hitems := (List.cons.inj h).2
          rw [List.append_assoc, List.append_assoc] at hitems
          have hhead : ∀ x, ∃ c cs, dumps lib compact x = c :: cs ∧ c ≠ ']' := by
            intro x
            obtain ⟨c, cs, htext, hc⟩ := dumps_head hlib x
            refine ⟨c, cs, htext, ?_⟩
            rintro rfl
            cases x <;> simp [leads, isAtomChar] at hc
          obtain ⟨hkeys, hrest⟩ := intercalate_inj (.inl rfl) hhead ih hitems
          rw [normal, normal, normalItems_eq, normalItems_eq, hkeys]
          exact ⟨rfl, hrest⟩
      | _ =>
          subst hbracket
          simp [leads, isAtomChar] at hd
  | obj ms ih =>
      intro w r s hr hs h
      obtain ⟨d, ds, hw, hd⟩ := dumps_head hlib w
      have hbrace : '\x7b' = d := by
        rw [hw, dumps_obj] at h
        exact (List.cons.inj h).1
      cases w with
      | obj ns =>
          rw [dumps_obj, dumps_obj, List.cons_append, List.cons_append] at h
          have hitems := (List.cons.inj h).2
          rw [List.append_assoc, List.append_assoc] at hitems
          have hhead : ∀ m, ∃ c cs, dumpsMember lib compact m = c :: cs ∧ c ≠ '\x7d' :=
            fun m => ⟨'"', _, rfl, by decide⟩
          have hmember : ∀ m ∈ sortByKey ms, Determines (dumpsMember lib compact)
              (fun m => (m.1, normal lib m.2)) m := by
            intro m hm n t u ht hu heq
            simp only [dumpsMember, compact, List.append_assoc] at heq
            obtain ⟨hkey, htail⟩ := asciiString_append_inj heq
            obtain ⟨hval, hrest⟩ := ih m (mem_sortByKey.mp hm) n.2 t u ht hu
              (List.cons.inj htail).2
            exact ⟨by simp only [hkey, hval], hrest⟩
          obtain ⟨hkeys, hrest⟩ := intercalate_inj (.inr rfl) hhead hmember hitems
          rw [normal, normal, normalMembers_eq, normalMembers_eq, sortByKey_map, sortByKey_map,
            hkeys]
          exact ⟨rfl, hrest⟩
      | _ =>
          subst hbrace
          simp [leads, isAtomChar] at hd

theorem dumps_injective (hlib : FloatTexts lib) {v w : Json}
    (h : dumps lib compact v = dumps lib compact w) : normal lib v = normal lib w :=
  (dumps_determines hlib v w [] [] follows_nil follows_nil (by simpa using h)).1

end

/-! ## Flat objects -/

section

variable {lib : Stdlib} {hook : List (String × Json) → Py Json}

/-- A string, or a natural number short enough for `int` to read. -/
def Flat (v : Json) : Prop :=
  (∃ s, v = .str s) ∨ ∃ k : Nat, v = .int k ∧ (Nat.toDigits 10 k).length ≤ maxIntDigits

theorem skipWs_append {blank : List Char} (hblank : ∀ c ∈ blank, isWs c = true) {c : Char}
    (hc : isWs c = false) (rest : List Char) : skipWs (blank ++ c :: rest) = c :: rest := by
  rw [skipWs, List.dropWhile_append_of_pos hblank]
  exact skipWs_cons hc rest

theorem scanOnce_str (n : Nat) (s : String) (rest : List Char) :
    scanOnce hook (n + 1) (asciiString s ++ rest) = .ok (.str s, rest) := by
  obtain ⟨body, hbody, hscan⟩ := scanString_asciiString s rest
  rw [hbody, scanOnce, hscan]
  simp [bind, Except.bind, pure, Except.pure]

theorem scanOnce_nat (n : Nat) {k : Nat} (hk : (Nat.toDigits 10 k).length ≤ maxIntDigits)
    {rest : List Char} (hrest : Follows rest) :
    scanOnce hook (n + 1) (dumps lib compact (.int k) ++ rest) = .ok (.int k, rest) := by
  have htext : dumps lib compact (.int k) = Nat.toDigits 10 k := by
    rw [dumps, ← Nat.toList_repr]
    rfl
  have hval : Nat.ofDigitChars 10 (Nat.toDigits 10 k) 0 = k := Nat.ofDigitChars_ten_toDigits
  have hscan : scanUnsigned false (Nat.toDigits 10 k ++ rest) = .ok (.int k, rest) := by
    simp [scanUnsigned, scanDigits_toDigits k hrest, scanFraction_follows hrest,
      scanExponent_follows hrest, Nat.not_lt.mpr hk, hval, pure, Except.pure]
  obtain ⟨d, ds, hds⟩ := List.exists_cons_of_ne_nil (Nat.toDigits_ne_nil (n := k) (b := 10))
  have hd : d.isDigit := digits_isDigit k d (by simp [hds])
  have hne : d ≠ '"' ∧ d ≠ '[' ∧ d ≠ '\x7b' := by
    refine ⟨?_, ?_, ?_⟩ <;> rintro rfl <;> exact absurd hd (by decide)
  rw [htext, hds, List.cons_append, scanOnce_scalar hne, scanScalar_of_digit hd, ← List.cons_append,
    ← hds]
  exact hscan

variable {blank gap close : List Char}

/-- The members of a flat object up to its closing brace, with white space after every separator
and before the brace. -/
theorem scanMembers_flat (hblank : ∀ c ∈ blank, isWs c = true) (hgap : ∀ c ∈ gap, isWs c = true)
    (hclose : ∀ c ∈ close, isWs c = true) {ms : List (String × Json)} (hne : ms ≠ [])
    (hflat : ∀ m ∈ ms, Flat m.2) (hlast : close = [] ∨ ∀ m ∈ ms.getLast?, ∃ s, m.2 = .str s)
    {n : Nat} (hn : ms.length + 1 ≤ n) (rest : List Char) :
    scanMembers hook n ((',' :: blank).intercalate
      (ms.map (dumpsMember lib ⟨',' :: blank, ':' :: gap⟩)) ++ close ++ '\x7d' :: rest) =
        .ok (ms, rest) := by
  have hcolon : isWs ':' = false := by decide
  have hcomma : isWs ',' = false := by decide
  have hbrace : isWs '\x7d' = false := by decide
  have hquote : isWs '"' = false := by decide
  -- a value is found after the gap and read back
  have hvalue : ∀ v n rest, Flat v → ((∃ s, v = .str s) ∨ Follows rest) →
      scanOnce hook (n + 1) (skipWs (gap ++ (dumps lib ⟨',' :: blank, ':' :: gap⟩ v ++ rest))) =
        .ok (v, rest) := by
    rintro v n rest (⟨s, rfl⟩ | ⟨k, rfl, hk⟩) hfollows
    · rw [dumps, show asciiString s ++ rest = '"' :: (s.toList.flatMap asciiChar ++ ['"'] ++ rest)
        by simp [asciiString], skipWs_append hgap hquote]
      exact scanOnce_str n s rest
    · have hrest : Follows rest := by
        rcases hfollows with ⟨s, hs⟩ | hrest
        · cases hs
        · exact hrest
      have hread := @scanOnce_nat lib hook n k hk rest hrest
      obtain ⟨d, ds, hds⟩ := List.exists_cons_of_ne_nil (int_text_ne_nil (k : Int))
      have hd : isWs d = false := by
        rcases int_text_chars (k : Int) d (hds ▸ List.mem_cons_self) with rfl | hdigit
        · decide
        · exact (ValueHead.of_digit hdigit).not_ws
      rw [dumps] at hread ⊢
      rw [hds, List.cons_append] at hread ⊢
      rw [skipWs_append hgap hd]
      exact hread
  induction ms generalizing n with
  | nil => exact absurd rfl hne
  | cons m ms ih =>
      obtain ⟨key, v⟩ := m
      obtain ⟨fuel, rfl⟩ : ∃ fuel, n = fuel + 1 + 1 := ⟨n - 2, by simp at hn; omega⟩
      have hv : Flat v := hflat (key, v) (by simp)
      cases ms with
      | nil =>
          obtain ⟨body, hbody, hkey⟩ := scanString_asciiString key
            (':' :: (gap ++ (dumps lib ⟨',' :: blank, ':' :: gap⟩ v ++ (close ++ '\x7d' :: rest))))
          have hstr : (∃ s, v = .str s) ∨ Follows (close ++ '\x7d' :: rest) := by
            rcases hlast with rfl | hlast
            · exact .inr (follows_cons (by simp) _)
            · exact .inl (hlast _ rfl)
          have htext : (',' :: blank).intercalate
              ([(key, v)].map (dumpsMember lib ⟨',' :: blank, ':' :: gap⟩)) ++ close ++
                '\x7d' :: rest = '"' :: body := by
            rw [← hbody]
            simp [dumpsMember]
          rw [htext, scanMembers, hkey]
          simp only [bind, Except.bind, skipWs_cons hcolon, hvalue v _ _ hv hstr,
            skipWs_append hclose hbrace, pure, Except.pure, String.ofList_toList]
      | cons m' ms =>
          have hrest := ih (by simp) (fun z hz => hflat z (List.mem_cons_of_mem _ hz))
            (hlast.imp id fun h z hz => h z (by simpa using hz)) (n := fuel + 1)
            (by simp at hn ⊢; omega)
          obtain ⟨tail, htail⟩ : ∃ tail, (',' :: blank).intercalate
              ((m' :: ms).map (dumpsMember lib ⟨',' :: blank, ':' :: gap⟩)) ++ close ++
                '\x7d' :: rest = '"' :: tail := by
            cases ms with
            | nil => exact ⟨_, by simp [dumpsMember, asciiString]; rfl⟩
            | cons m'' ms =>
                exact ⟨_, by simp [dumpsMember, asciiString, List.intercalate_cons_cons]; rfl⟩
          obtain ⟨body, hbody, hkey⟩ := scanString_asciiString key
            (':' :: (gap ++ (dumps lib ⟨',' :: blank, ':' :: gap⟩ v ++
              (',' :: (blank ++ ('"' :: tail))))))
          have htext : (',' :: blank).intercalate
              (((key, v) :: m' :: ms).map (dumpsMember lib ⟨',' :: blank, ':' :: gap⟩)) ++ close ++
                '\x7d' :: rest = '"' :: body := by
            rw [← hbody, ← htail]
            simp [dumpsMember, List.intercalate_cons_cons]
          rw [htail] at hrest
          rw [htext, scanMembers, hkey]
          simp only [bind, Except.bind, skipWs_cons hcolon,
            hvalue v _ _ hv (.inr (follows_cons (.inl rfl) _)), skipWs_cons hcomma,
            skipWs_append hblank hquote, hrest, pure, Except.pure, String.ofList_toList]

theorem length_le_intercalate {item : List Char} {texts : List (List Char)}
    (h : ∀ t ∈ texts, t ≠ []) : texts.length ≤ (item.intercalate texts).length := by
  induction texts with
  | nil => simp
  | cons t texts ih =>
      have ht := List.length_pos_iff.mpr (h t (by simp))
      have hrest := ih fun u hu => h u (List.mem_cons_of_mem _ hu)
      cases texts with
      | nil =>
          simp only [List.intercalate_singleton, List.length_singleton]
          omega
      | cons u texts =>
          rw [List.intercalate_cons_cons]
          simp only [List.length_append, List.length_cons] at hrest ⊢
          omega

/-- The text of a flat object: an opening brace and white space, the members, white space and the
closing brace, white space. -/
def flatText (lib : Stdlib) (sep : Separators) (opening close trailing : List Char)
    (ms : List (String × Json)) : List Char :=
  '\x7b' :: (opening ++ (sep.item.intercalate (ms.map (dumpsMember lib sep)) ++ close ++
    '\x7d' :: trailing))

theorem parseText_flat {opening trailing : List Char} (hopening : ∀ c ∈ opening, isWs c = true)
    (hblank : ∀ c ∈ blank, isWs c = true) (hgap : ∀ c ∈ gap, isWs c = true)
    (hclose : ∀ c ∈ close, isWs c = true) (htrailing : ∀ c ∈ trailing, isWs c = true)
    {ms : List (String × Json)} (hne : ms ≠ []) (hkeys : (ms.map (·.1)).Nodup)
    (hflat : ∀ m ∈ ms, Flat m.2) (hlast : close = [] ∨ ∀ m ∈ ms.getLast?, ∃ s, m.2 = .str s) :
    parseText plainObject (String.ofList
      (flatText lib ⟨',' :: blank, ':' :: gap⟩ opening close trailing ms)) = .ok (.obj ms) := by
  have hbrace : isWs '\x7b' = false := by decide
  have hquote : isWs '"' = false := by decide
  set sep : Separators := ⟨',' :: blank, ':' :: gap⟩ with hsep
  set body := sep.item.intercalate (ms.map (dumpsMember lib sep)) ++ close ++ '\x7d' :: trailing
    with hbodydef
  obtain ⟨tail, htail⟩ : ∃ tail, body = '"' :: tail := by
    obtain ⟨m, ms', rfl⟩ := List.exists_cons_of_ne_nil hne
    cases ms' with
    | nil => exact ⟨_, by simp [hbodydef, dumpsMember, asciiString]; rfl⟩
    | cons m' ms' =>
        exact ⟨_, by simp [hbodydef, dumpsMember, asciiString, List.intercalate_cons_cons]; rfl⟩
  have hlen : ms.length ≤ body.length := by
    have := @length_le_intercalate sep.item (ms.map (dumpsMember lib sep)) (by
      intro t ht
      obtain ⟨m, -, rfl⟩ := List.mem_map.mp ht
      simp [dumpsMember, asciiString])
    rw [List.length_map] at this
    simp only [hbodydef, List.length_append]
    omega
  have hskip : skipWs (opening ++ body) = body := by
    rw [htail]
    exact skipWs_append hopening hquote tail
  have htrail : skipWs trailing = [] := by
    rw [skipWs, List.dropWhile_eq_nil_iff]
    exact htrailing
  have hfuel : ∃ n, 2 * (flatText lib sep opening close trailing ms).length + 1 = n + 1 ∧
      ms.length + 1 ≤ n := by
    refine ⟨_, rfl, ?_⟩
    have : (flatText lib sep opening close trailing ms).length = opening.length + body.length + 1 := by
      simp only [flatText, List.length_cons, List.length_append, hbodydef]
    omega
  obtain ⟨n, hfuel, hn⟩ := hfuel
  have hmembers := @scanMembers_flat lib plainObject blank gap close hblank hgap hclose ms hne hflat
    hlast n hn trailing
  have hscan : scanOnce plainObject (n + 1) (flatText lib sep opening close trailing ms) =
      .ok (.obj ms, trailing) := by
    rw [flatText, scanOnce, hskip, htail]
    rw [← hsep, ← hbodydef, htail] at hmembers
    simp [hmembers, bind, Except.bind, pure, Except.pure, keepsDistinct_plainObject ms hkeys]
  unfold parseText
  rw [String.toList_ofList]
  have hbom : ∀ cs, flatText lib sep opening close trailing ms ≠ '\uFEFF' :: cs := by
    intro cs h
    exact absurd (List.cons.inj h).1 (by decide)
  split
  · next cs h => exact absurd h (hbom cs)
  · next h =>
    have hstart : skipWs (flatText lib sep opening close trailing ms) =
        flatText lib sep opening close trailing ms := skipWs_cons hbrace _
    rw [hstart, hfuel, hscan]
    simp [bind, Except.bind, htrail, pure, Except.pure]

end

end TrwMcp.Intent

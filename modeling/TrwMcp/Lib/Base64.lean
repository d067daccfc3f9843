import Mathlib.Tactic.Common
import Mathlib.Data.UInt

/-!
# Base 64 with the URL-safe alphabet

Three bytes are four characters; a last group of one or two bytes is padded. The decoder takes what
`b64decode(text, altchars=b"-_", validate=True)` takes: also the two characters of the plain
alphabet, and bits of a last character that no byte uses.
-/

namespace TrwMcp.Lib.Base64

/-- The character of a six-bit value. -/
def sextetChar (n : Nat) : Char :=
  if n < 26 then Char.ofNat (65 + n)
  else if n < 52 then Char.ofNat (71 + n)
  else if n < 62 then Char.ofNat (n - 4)
  else if n = 62 then '-'
  else '_'

/-- The six-bit value of a character. -/
def sextetValue (c : Char) : Option Nat :=
  if 65 ≤ c.toNat ∧ c.toNat ≤ 90 then some (c.toNat - 65)
  else if 97 ≤ c.toNat ∧ c.toNat ≤ 122 then some (c.toNat - 71)
  else if 48 ≤ c.toNat ∧ c.toNat ≤ 57 then some (c.toNat + 4)
  else if c = '-' ∨ c = '+' then some 62
  else if c = '_' ∨ c = '/' then some 63
  else none

theorem sextetValue_sextetChar : ∀ n < 64, sextetValue (sextetChar n) = some n := by decide

theorem sextetChar_ne_pad : ∀ n < 64, sextetChar n ≠ '=' := by decide

/-- The characters of some bytes, padded. -/
@[grind =] def encode : List UInt8 → List Char
  | [] => []
  | [a] => [sextetChar (a.toNat / 4), sextetChar (a.toNat % 4 * 16), '=', '=']
  | [a, b] =>
      [sextetChar (a.toNat / 4), sextetChar (a.toNat % 4 * 16 + b.toNat / 16),
        sextetChar (b.toNat % 16 * 4), '=']
  | a :: b :: c :: rest =>
      sextetChar (a.toNat / 4) :: sextetChar (a.toNat % 4 * 16 + b.toNat / 16) ::
        sextetChar (b.toNat % 16 * 4 + c.toNat / 64) :: sextetChar (c.toNat % 64) :: encode rest

/-- The bytes of a padded text, or `none`. -/
@[grind =] def decode : List Char → Option (List UInt8)
  | [] => some []
  | p :: q :: r :: s :: rest => do
      let p ← sextetValue p
      let q ← sextetValue q
      let a := UInt8.ofNat (p * 4 + q / 16)
      if r = '=' then
        if s = '=' ∧ rest = [] then return [a] else none
      else
        let r ← sextetValue r
        let b := UInt8.ofNat (q % 16 * 16 + r / 4)
        if s = '=' then
          if rest = [] then return [a, b] else none
        else
          let s ← sextetValue s
          return a :: b :: UInt8.ofNat (r % 4 * 64 + s) :: (← decode rest)
  | _ => none

theorem ofNat_eq {n : Nat} {a : UInt8} (h : n = a.toNat) : UInt8.ofNat n = a := by
  rw [h, UInt8.ofNat_toNat]

theorem decode_encode (bytes : List UInt8) : decode (encode bytes) = some bytes := by
  fun_induction encode bytes with
  | case1 => rfl
  | case2 a =>
      have ha := a.toNat_lt
      simp only [decode, sextetValue_sextetChar (a.toNat / 4) (by omega),
        sextetValue_sextetChar (a.toNat % 4 * 16) (by omega), Option.bind_eq_bind,
        Option.bind_some, if_true, and_self, Option.pure_def]
      rw [ofNat_eq (a := a) (by omega)]
  | case3 a b =>
      have ha := a.toNat_lt
      have hb := b.toNat_lt
      simp only [decode, sextetValue_sextetChar (a.toNat / 4) (by omega),
        sextetValue_sextetChar (a.toNat % 4 * 16 + b.toNat / 16) (by omega),
        sextetValue_sextetChar (b.toNat % 16 * 4) (by omega), Option.bind_eq_bind,
        Option.bind_some, if_neg (sextetChar_ne_pad (b.toNat % 16 * 4) (by omega)), if_true,
        Option.pure_def]
      rw [ofNat_eq (a := a) (by omega), ofNat_eq (a := b) (by omega)]
  | case4 a b c rest ih =>
      have ha := a.toNat_lt
      have hb := b.toNat_lt
      have hc := c.toNat_lt
      simp only [decode, sextetValue_sextetChar (a.toNat / 4) (by omega),
        sextetValue_sextetChar (a.toNat % 4 * 16 + b.toNat / 16) (by omega),
        sextetValue_sextetChar (b.toNat % 16 * 4 + c.toNat / 64) (by omega),
        sextetValue_sextetChar (c.toNat % 64) (by omega), Option.bind_eq_bind, Option.bind_some,
        if_neg (sextetChar_ne_pad (b.toNat % 16 * 4 + c.toNat / 64) (by omega)),
        if_neg (sextetChar_ne_pad (c.toNat % 64) (by omega)), ih, Option.pure_def]
      rw [ofNat_eq (a := a) (by omega), ofNat_eq (a := b) (by omega), ofNat_eq (a := c) (by omega)]

theorem length_encode (bytes : List UInt8) :
    (encode bytes).length = 4 * ((bytes.length + 2) / 3) := by
  fun_induction encode bytes with
  | case1 => rfl
  | case2 a => simp
  | case3 a b => simp
  | case4 a b c rest ih =>
      simp only [List.length_cons, ih]
      omega

end TrwMcp.Lib.Base64

import TrwMcp.Comms.RequestKeys
import TrwMcp.Intent.Dumps
import TrwMcp.Lib.Base64

/-!
# Page cursors

A cursor is the base 64 of the canonical JSON of its version and fields. The decoder reads any text
and keeps what it read only if encoding it again gives the same text, so a cursor has one spelling.
An inbox cursor has two fields: the scope it was issued for and the rowid the page ended at.
-/

namespace TrwMcp.Comms

open Handoff Lib
open Intent (sortByKey floatText)

/-! ## Canonical JSON -/

section

variable (lib : Stdlib)

/-- A float under `allow_nan=False`. -/
def finiteText (text : String) : Option (List Char) :=
  let shown := floatText lib text
  if shown = "NaN".toList ∨ shown = "Infinity".toList ∨ shown = "-Infinity".toList then none
  else some shown

mutual

/-- `json.dumps(value, sort_keys=True, separators=(",", ":"), ensure_ascii=False, allow_nan=False)`,
which refuses what is no number. -/
@[grind =] def canonicalText : Json → Option (List Char)
  | .null => some "null".toList
  | .bool true => some "true".toList
  | .bool false => some "false".toList
  | .int n => some (toString n).toList
  | .float text => finiteText lib text
  | .str s => some (jsonString s)
  | .arr xs => do return '[' :: (joinComma (← canonicalItems xs) ++ [']'])
  | .obj ms => do
      let parts := (sortByKey (← canonicalMembers ms)).map fun m => jsonString m.1 ++ ':' :: m.2
      return '\x7b' :: (joinComma parts ++ ['\x7d'])

@[grind =] def canonicalItems : List Json → Option (List (List Char))
  | [] => some []
  | x :: xs => do return (← canonicalText x) :: (← canonicalItems xs)

@[grind =] def canonicalMembers : List (String × Json) → Option (List (String × List Char))
  | [] => some []
  | (k, x) :: ms => do return (k, ← canonicalText x) :: (← canonicalMembers ms)

end

/-! ## The codec -/

/-- `CURSOR_VERSION` -/
def cursorVersion : Int := 1

def cursorOf (text : List Char) : String :=
  String.ofList (Base64.encode (String.ofList text).toUTF8.data.toList)

/-- `encode_cursor` -/
def encodeCursor (fields : List Json) : Option String :=
  (canonicalText lib (.arr (.int cursorVersion :: fields))).map cursorOf

/-- `json.loads` of the decoded text; a text that is not ASCII, not base 64 or not JSON has none. -/
def cursorPayload (cursor : String) : Option Json := do
  let raw ← Base64.decode cursor.toList
  (jsonLoads lib ⟨raw.toArray⟩).toOption

/-- `decode_cursor`: the fields of a canonical cursor. -/
def decodeCursor (cursor : String) (maxChars arity : Nat) : Option (List Json) :=
  if cursor = "" ∨ maxChars < cursor.length then none
  else match cursorPayload lib cursor with
    | some (.arr (.int version :: fields)) =>
        if fields.length = arity ∧ version = cursorVersion ∧ encodeCursor lib fields = some cursor
        then some fields else none
    | _ => none

/-! ## Inbox cursors -/

/-- The value of an inbox action. -/
def InboxAction.value : InboxAction → String
  | .fetch => "fetch"
  | .ack => "ack"
  | .status => "status"
  | .accept => "accept"
  | .report => "report"
  | .complete => "complete"
  | .readBack => "read_back"
  | .answer => "answer"
  | .decline => "decline"
  | .offerWithdraw => "offer_withdraw"

/-- What `_scope` hashes: the caller, the action and the incarnation. -/
def scopeFields (binding : CallerBinding) (action : InboxAction) (incarnation : Option String) :
    List Json :=
  [.int 1, .str binding.groupId, .str binding.memberId, .str binding.runPath,
    .str binding.sessionId, .str action.value, (incarnation.map Json.str).getD .null]

/-- `_scope` -/
def scopeOf (binding : CallerBinding) (action : InboxAction) (incarnation : Option String) :
    String :=
  lib.sha256 (String.ofList
    ((canonicalText lib (.arr (scopeFields binding action incarnation))).getD [])).toUTF8

/-- The text of a cursor at a rowid. -/
def cursorText (scope : String) (after : Nat) : List Char :=
  '[' :: '1' :: ',' :: (jsonString scope ++ ',' :: (Nat.toDigits 10 after ++ [']']))

/-- `_encode` -/
def issue (scope : String) (after : Nat) : String := cursorOf (cursorText scope after)

/-- `_decode` -/
def decodeAfter (cursor : Option String) (scope : String) : Mail Nat :=
  match cursor with
  | none => pure 0
  | some text =>
      match decodeCursor lib text 256 2 with
      | some [.str found, .int after] =>
          if found = scope ∧ 1 ≤ after ∧ after ≤ 2 ^ 63 - 1 then pure after.toNat
          else throw (.refused "invalid_cursor")
      | _ => throw (.refused "invalid_cursor")

end

section

variable {lib : Stdlib}

theorem encodeCursor_issue (scope : String) (after : Nat) :
    encodeCursor lib [.str scope, .int after] = some (issue scope after) := by
  have hdigits : (toString (after : Int)).toList = Nat.toDigits 10 after := by
    show (toString after).toList = _
    exact Nat.toList_repr
  have hone : (toString cursorVersion).toList = ['1'] := by decide
  simp only [encodeCursor, canonicalText, canonicalItems, Option.bind_eq_bind, Option.bind_some,
    Option.pure_def, Option.map_some, joinComma_cons_cons, joinComma_singleton, hone, hdigits,
    issue, cursorText, List.cons_append, List.nil_append, List.append_assoc]

/-! ## Reading a cursor back -/

variable {hook : List (String × Json) → Py Json}

theorem scanScalar_nat {n : Nat} (hn : (Nat.toDigits 10 n).length ≤ maxIntDigits)
    {rest : List Char} (hr : Follows rest) :
    scanScalar (Nat.toDigits 10 n ++ rest) = .ok (.int n, rest) := by
  obtain ⟨d, ds, hds⟩ := List.exists_cons_of_ne_nil (Nat.toDigits_ne_nil (n := n) (b := 10))
  have hdigit : d.isDigit := digits_isDigit n d (by simp [hds])
  rw [hds, List.cons_append, scanScalar_of_digit hdigit, ← List.cons_append, ← hds, scanUnsigned,
    scanDigits_toDigits n hr]
  simp only [scanFraction_follows hr, scanExponent_follows hr, List.isEmpty_nil, Bool.and_self,
    if_true, if_neg (Nat.not_lt.mpr hn), Bool.false_eq_true, if_false,
    Nat.ofDigitChars_toDigits (b := 10) (n := n) (by decide) (by decide)]
  rfl

theorem scanOnce_nat {n fuel : Nat} (hn : (Nat.toDigits 10 n).length ≤ maxIntDigits)
    {rest : List Char} (hr : Follows rest) :
    scanOnce hook (fuel + 1) (Nat.toDigits 10 n ++ rest) = .ok (.int n, rest) := by
  obtain ⟨d, ds, hds⟩ := List.exists_cons_of_ne_nil (Nat.toDigits_ne_nil (n := n) (b := 10))
  have hdigit : d.isDigit := digits_isDigit n d (by simp [hds])
  have hne : d ≠ '"' ∧ d ≠ '[' ∧ d ≠ '\x7b' := by
    refine ⟨?_, ?_, ?_⟩ <;> rintro rfl <;> exact absurd hdigit (by decide)
  rw [← scanScalar_nat hn hr, hds, List.cons_append, scanOnce_scalar hne]

theorem scanItems_more {fuel : Nat} {text rest rest' : List Char} {x : Json} {xs : List Json}
    (hx : scanOnce hook fuel text = .ok (x, ',' :: rest)) (hws : skipWs rest = rest)
    (hxs : scanItems hook fuel rest = .ok (xs, rest')) :
    scanItems hook (fuel + 1) text = .ok (x :: xs, rest') := by
  rw [scanItems, hx]
  simp [bind, Except.bind, pure, Except.pure, skipWs_cons (show isWs ',' = false by decide), hws,
    hxs]

theorem scanItems_last {fuel : Nat} {text rest : List Char} {x : Json}
    (hx : scanOnce hook fuel text = .ok (x, ']' :: rest)) :
    scanItems hook (fuel + 1) text = .ok ([x], rest) := by
  rw [scanItems, hx]
  simp [bind, Except.bind, pure, Except.pure, skipWs_cons (show isWs ']' = false by decide)]

theorem parseText_cursorText (scope : String) {after : Nat}
    (hn : (Nat.toDigits 10 after).length ≤ maxIntDigits) :
    parseText hook (String.ofList (cursorText scope after)) =
      .ok (.arr [.int 1, .str scope, .int after]) := by
  obtain ⟨inner, hinner, hscan⟩ :=
    scanString_jsonString scope (',' :: (Nat.toDigits 10 after ++ [']']))
  have htext : cursorText scope after =
      '[' :: '1' :: ',' :: '"' :: inner := by rw [cursorText, hinner]
  have hfirst : ∀ fuel rest, scanOnce hook (fuel + 1) ('1' :: ',' :: rest) =
      .ok (.int 1, ',' :: rest) := fun fuel rest =>
    scanOnce_nat (n := 1) (by decide) (follows_cons (.inl rfl) rest)
  have hsecond : ∀ fuel, scanOnce hook (fuel + 1) ('"' :: inner) =
      .ok (.str scope, ',' :: (Nat.toDigits 10 after ++ [']'])) := by
    intro fuel
    rw [scanOnce, hscan]
    show Except.ok (Json.str (String.ofList scope.toList), _) = _
    rw [String.ofList_toList]
  have hthird : ∀ fuel, scanOnce hook (fuel + 1) (Nat.toDigits 10 after ++ [']']) =
      .ok (.int after, [']']) := fun fuel => scanOnce_nat hn (follows_cons (.inr (.inl rfl)) [])
  have hdigits : skipWs (Nat.toDigits 10 after ++ [']']) = Nat.toDigits 10 after ++ [']'] := by
    obtain ⟨d, ds, hds⟩ :=
      List.exists_cons_of_ne_nil (Nat.toDigits_ne_nil (n := after) (b := 10))
    rw [hds]
    exact skipWs_cons (ValueHead.of_digit (digits_isDigit after d (by simp [hds]))).not_ws _
  have hitems : ∀ fuel, scanItems hook (fuel + 4) ('1' :: ',' :: '"' :: inner) =
      .ok ([.int 1, .str scope, .int after], []) := fun fuel =>
    scanItems_more (hfirst _ _) (skipWs_cons (by decide) _)
      (scanItems_more (hsecond _) hdigits (scanItems_last (hthird _)))
  have hlen : ∃ fuel, 2 * (cursorText scope after).length = fuel + 4 :=
    ⟨2 * (cursorText scope after).length - 4, by rw [htext]; simp only [List.length_cons]; omega⟩
  obtain ⟨fuel, hfuel⟩ := hlen
  have hwhole : scanOnce hook (2 * (cursorText scope after).length + 1) (cursorText scope after) =
      .ok (.arr [.int 1, .str scope, .int after], []) := by
    rw [hfuel, htext, scanOnce, skipWs_cons (by decide)]
    simp [hitems, bind, Except.bind, pure, Except.pure]
  rw [htext] at hwhole
  rw [parseText, String.toList_ofList, htext]
  split
  · next heq => exact absurd (List.cons.inj heq).1 (by decide)
  · rw [skipWs_cons (by decide), hwhole]
    rfl

theorem detectsUtf8_cursorText (scope : String) (after : Nat) :
    detectsUtf8 (String.ofList (cursorText scope after)).toUTF8.toList = true := by
  have hopen : String.utf8EncodeChar '[' = [0x5b] := by decide
  have hone : String.utf8EncodeChar '1' = [0x31] := by decide
  have hcomma : String.utf8EncodeChar ',' = [0x2c] := by decide
  obtain ⟨cs, hcs⟩ : ∃ cs, cursorText scope after = '[' :: '1' :: ',' :: '"' :: cs :=
    ⟨_, by rw [cursorText, jsonString]; rfl⟩
  have hquote : String.utf8EncodeChar '"' = [0x22] := by decide
  rw [toUTF8_toList, hcs]
  simp only [List.flatMap_cons, hopen, hone, hcomma, hquote, List.cons_append, List.nil_append]
  rfl

theorem jsonLoads_cursorText (scope : String) {after : Nat}
    (hn : (Nat.toDigits 10 after).length ≤ maxIntDigits) :
    jsonLoads lib (String.ofList (cursorText scope after)).toUTF8 =
      .ok (.arr [.int 1, .str scope, .int after]) := by
  simp only [jsonLoads, detectsUtf8_cursorText, if_true, fromUTF8_toUTF8,
    parseText_cursorText scope hn]

/-! ## The length of a cursor -/

theorem escapeChar_of_isHex {c : Char} (h : isHex c = true) :
    escapeChar c = [c] ∧ c.toNat < 128 := by
  have hrange : 48 ≤ c.toNat ∧ c.toNat ≤ 57 ∨ 97 ≤ c.toNat ∧ c.toNat ≤ 102 := by
    simp only [isHex, Bool.or_eq_true, Bool.and_eq_true, decide_eq_true_eq, Char.isDigit,
      Char.le_def, UInt32.le_iff_toNat_le] at h
    exact h
  have hne : ∀ d : Char, d.toNat < 48 ∨ d.toNat = 92 → c ≠ d := by
    rintro d hd rfl
    omega
  refine ⟨?_, by omega⟩
  rw [escapeChar, if_neg (hne _ (by decide)), if_neg (hne _ (by decide)),
    if_neg (hne _ (by decide)), if_neg (hne _ (by decide)), if_neg (hne _ (by decide)),
    if_neg (by omega), if_neg (by omega), if_neg (by omega)]

/-- `hexdigest()` is 64 lower-case hexadecimal digits. -/
def HexDigest (lib : Stdlib) : Prop := ∀ raw, isHexText 64 (lib.sha256 raw) = true

theorem jsonString_hex {scope : String} (h : isHexText 64 scope = true) :
    jsonString scope = '"' :: (scope.toList ++ ['"']) := by
  have hall : ∀ c ∈ scope.toList, isHex c = true := by
    simp only [isHexText, Bool.and_eq_true, List.all_eq_true] at h
    exact h.2
  rw [jsonString, List.flatMap_congr (g := fun c => [c]) fun c hc =>
    (escapeChar_of_isHex (hall c hc)).1]
  simp

theorem ascii_bytes {cs : List Char} (h : ∀ c ∈ cs, c.toNat < 128) :
    (cs.flatMap String.utf8EncodeChar).length = cs.length := by
  induction cs with
  | nil => rfl
  | cons c cs ih =>
      have hc : (String.utf8EncodeChar c).length = 1 := by
        rw [String.length_utf8EncodeChar]
        refine Char.utf8Size_eq_one_iff.mpr ?_
        have hlow : c.val.toNat < 128 := h c (by simp)
        exact UInt32.le_iff_toNat_le.mpr (by show c.val.toNat ≤ 127; omega)
      rw [List.flatMap_cons, List.length_append, hc, ih fun d hd => h d (by simp [hd])]
      simp [Nat.add_comm]

theorem length_issue {scope : String} (hscope : isHexText 64 scope = true) {after : Nat}
    (hafter : after ≤ 2 ^ 63 - 1) : (issue scope after).length ≤ 120 := by
  have hdigits : (Nat.toDigits 10 after).length ≤ 19 :=
    (Nat.length_toDigits_le_iff (by decide) (by decide)).mpr (by omega)
  have hall : scope.toList.length = 64 ∧ ∀ c ∈ scope.toList, isHex c = true := by
    simpa only [isHexText, Bool.and_eq_true, List.all_eq_true, decide_eq_true_eq] using hscope
  have hascii : ∀ c ∈ cursorText scope after, c.toNat < 128 := by
    intro c hc
    simp only [cursorText, jsonString_hex hscope, List.mem_cons, List.mem_append,
      List.not_mem_nil, or_false] at hc
    rcases hc with rfl | rfl | rfl | (rfl | hc | rfl) | rfl | hc | rfl
    all_goals first | decide | skip
    · exact (escapeChar_of_isHex (hall.2 c hc)).2
    · have := digits_isDigit after c hc
      simp only [Char.isDigit, Bool.and_eq_true, decide_eq_true_eq, UInt32.le_iff_toNat_le] at this
      have htop : c.toNat ≤ 57 := this.2
      omega
  have hlength : (cursorText scope after).length ≤ 90 := by
    rw [cursorText, jsonString_hex hscope]
    simp only [List.length_cons, List.length_append, List.length_nil, hall.1]
    omega
  have hbytes : (String.ofList (cursorText scope after)).toUTF8.data.toList.length ≤ 90 := by
    rw [String.toUTF8_eq_toByteArray, String.toByteArray_ofList, List.utf8Encode,
      List.toList_data_toByteArray, ascii_bytes hascii]
    exact hlength
  rw [issue, cursorOf, String.length_ofList, Base64.length_encode]
  omega

/-! ## Issued and accepted -/

theorem encodeCursor_of_decodeCursor {text : String} {maxChars arity : Nat} {fields : List Json}
    (h : decodeCursor lib text maxChars arity = some fields) :
    encodeCursor lib fields = some text ∧ fields.length = arity ∧ text.length ≤ maxChars := by
  unfold decodeCursor at h
  split at h
  · cases h
  · next hsize =>
      split at h
      · split at h
        · next hkeep =>
            cases h
            exact ⟨hkeep.2.2, hkeep.1, Nat.le_of_not_lt fun hlt => hsize (.inr hlt)⟩
        · cases h
      · cases h

theorem cursorPayload_empty (lib : Stdlib) : cursorPayload lib "" = none := by
  have hdecode : Base64.decode "".toList = some [] := rfl
  have hutf8 : detectsUtf8 (ByteArray.mk [].toArray).toList = true := by
    show detectsUtf8 ByteArray.empty.toList = true
    rw [ByteArray.toList_empty]
    rfl
  have hdata : String.fromUTF8? (ByteArray.mk [].toArray) = some "" := fromUTF8_toUTF8 ""
  have hempty : parseText plainObject "" = .error .jsonDecodeError := rfl
  simp only [cursorPayload, hdecode, Option.bind_eq_bind, Option.bind_some, jsonLoads, hutf8,
    if_true, hdata, hempty]
  rfl

theorem decodeCursor_issue {scope : String} (hscope : isHexText 64 scope = true) {after : Nat}
    (hafter : after ≤ 2 ^ 63 - 1) :
    decodeCursor lib (issue scope after) 256 2 = some [.str scope, .int after] := by
  have hlength := length_issue hscope hafter
  have hdigits : (Nat.toDigits 10 after).length ≤ maxIntDigits :=
    ((Nat.length_toDigits_le_iff (k := 19) (by decide) (by decide)).mpr (by omega)).trans
      (by decide)
  have hpayload : cursorPayload lib (issue scope after) =
      some (.arr [.int 1, .str scope, .int after]) := by
    simp only [cursorPayload, issue, cursorOf, String.toList_ofList, Base64.decode_encode,
      Option.bind_eq_bind, Option.bind_some, Array.toArray_toList]
    exact congrArg Except.toOption (jsonLoads_cursorText scope hdigits)
  have hne : issue scope after ≠ "" := by
    intro hempty
    rw [hempty] at hpayload
    cases hpayload.symm.trans (cursorPayload_empty lib)
  rw [decodeCursor, if_neg (not_or.mpr ⟨hne, by omega⟩), hpayload]
  exact if_pos ⟨rfl, rfl, encodeCursor_issue scope after⟩

theorem decodeAfter_issue {scope : String} (hscope : isHexText 64 scope = true) {after : Nat}
    (hpos : 1 ≤ after) (hafter : after ≤ 2 ^ 63 - 1) :
    decodeAfter lib (some (issue scope after)) scope = .ok after := by
  simp only [decodeAfter, decodeCursor_issue hscope hafter]
  rw [if_pos ⟨trivial, by omega, by omega⟩]
  rfl

theorem issue_of_decodeAfter {text scope : String} {after : Nat}
    (h : decodeAfter lib (some text) scope = .ok after) :
    text = issue scope after ∧ 1 ≤ after ∧ after ≤ 2 ^ 63 - 1 := by
  simp only [decodeAfter] at h
  split at h
  · next found n hdecoded =>
      split at h
      · next hfields =>
          obtain ⟨rfl, hlow, hhigh⟩ := hfields
          cases h
          obtain ⟨m, rfl⟩ := Int.eq_ofNat_of_zero_le (by omega : 0 ≤ n)
          have hencode := (encodeCursor_of_decodeCursor hdecoded).1
          rw [encodeCursor_issue] at hencode
          rw [Int.toNat_natCast]
          exact ⟨(Option.some.inj hencode).symm, by omega, by omega⟩
      · cases h
  · cases h

theorem issue_injective {scope : String} {n m : Nat} (h : issue scope n = issue scope m) :
    n = m := by
  have htext : cursorText scope n = cursorText scope m := by
    have hchars := congrArg String.toList h
    simp only [issue, cursorOf, String.toList_ofList] at hchars
    have hbytes := congrArg Base64.decode hchars
    simp only [Base64.decode_encode, Option.some.injEq, Array.toList_inj] at hbytes
    have hread := congrArg String.fromUTF8? (congrArg ByteArray.mk hbytes)
    exact String.ofList_injective
      (Option.some.inj ((fromUTF8_toUTF8 _).symm.trans (hread.trans (fromUTF8_toUTF8 _))))
  have hdigits : Nat.toDigits 10 n = Nat.toDigits 10 m := by
    simpa [cursorText] using htext
  have hvalue := congrArg (fun ds => Nat.ofDigitChars 10 ds 0) hdigits
  simpa [Nat.ofDigitChars_toDigits (b := 10) (by decide) (by decide)] using hvalue

end

end TrwMcp.Comms

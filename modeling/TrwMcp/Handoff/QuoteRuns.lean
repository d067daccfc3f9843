import TrwMcp.Handoff.Quotes
import TrwMcp.Handoff.Digest

/-!
# A quote is found again

The URI of a file below the root leads back to that file, and a quote that was cut from a file
matches the file until its bytes change.
-/

namespace TrwMcp.Handoff.Quotes

open Lib Check

/-! ## Percent-encoding -/

theorem forall_byte {p : UInt8 → Prop} (h : ∀ n < 256, p (UInt8.ofNat n)) : ∀ b, p b := by
  intro b
  have hb := h b.toNat b.toNat_lt
  rwa [UInt8.ofNat_toNat] at hb

theorem unreserved_high : ∀ b : UInt8, 128 ≤ b.toNat → unreserved b = false :=
  forall_byte (by decide +kernel)

theorem hexValue_upperHex : ∀ d < 16, hexValue (upperHex d) = some d := by decide

theorem upperHex_escape : ∀ b : UInt8, unreserved b = false →
    upperHex (b.toNat / 16) ≠ '%' ∧ upperHex (b.toNat % 16) ≠ '%' ∧
      ¬ (upperHex (b.toNat / 16) = '2' ∧
        (upperHex (b.toNat % 16) = 'e' ∨ upperHex (b.toNat % 16) = 'E')) :=
  forall_byte (by decide +kernel)

theorem unreserved_char : ∀ b : UInt8, unreserved b = true → Char.ofNat b.toNat ≠ '%' :=
  forall_byte (by decide +kernel)

theorem encodeByte_free : ∀ b : UInt8, ((encodeByte b).all fun c => c != '#' && c != '?') = true :=
  forall_byte (by decide +kernel)

theorem hasEncodedDot_cons {c : Char} (hc : c ≠ '%') (cs : List Char) :
    hasEncodedDot (c :: cs) = hasEncodedDot cs := by
  rw [hasEncodedDot]
  rintro _ _ rfl
  exact absurd rfl hc

theorem hasEncodedDot_encodeByte (b : UInt8) (cs : List Char) :
    hasEncodedDot (encodeByte b ++ cs) = hasEncodedDot cs := by
  unfold encodeByte
  cases hb : unreserved b with
  | true => exact hasEncodedDot_cons (unreserved_char b hb) cs
  | false =>
      obtain ⟨hx, hy, hdot⟩ := upperHex_escape b hb
      generalize upperHex (b.toNat / 16) = x at hx hdot ⊢
      generalize upperHex (b.toNat % 16) = y at hy hdot ⊢
      have hrest : hasEncodedDot (x :: y :: cs) = hasEncodedDot cs := by
        rw [hasEncodedDot_cons hx, hasEncodedDot_cons hy]
      -- only `%2e` and `%2E` would be refused
      by_cases hx2 : x = '2'
      · subst hx2
        have he : (y == 'e') = false := beq_false_of_ne fun h => hdot ⟨rfl, .inl h⟩
        have hE : (y == 'E') = false := beq_false_of_ne fun h => hdot ⟨rfl, .inr h⟩
        simpa [hasEncodedDot, he, hE] using hrest
      · have hstep : hasEncodedDot ('%' :: x :: y :: cs) = hasEncodedDot (x :: y :: cs) := by
          rw [hasEncodedDot]
          rintro _ _ _ h
          simp_all
        simpa using hstep.trans hrest

theorem hasEncodedDot_bytes (bs : List UInt8) : hasEncodedDot (bs.flatMap encodeByte) = false := by
  induction bs with
  | nil => rfl
  | cons b bs ih => rw [List.flatMap_cons, hasEncodedDot_encodeByte, ih]

section

variable (fs : FileSystem)

theorem percentDecode_escape (pending : List UInt8) (b : UInt8) (cs : List Char) :
    percentDecode fs.decodeReplace pending
      ('%' :: upperHex (b.toNat / 16) :: upperHex (b.toNat % 16) :: cs) =
      percentDecode fs.decodeReplace (pending ++ [b]) cs := by
  have hb := b.toNat_lt
  have hx := hexValue_upperHex (b.toNat / 16) (by omega)
  have hy := hexValue_upperHex (b.toNat % 16) (by omega)
  rw [percentDecode, hx, hy]
  simp only [Nat.div_add_mod, UInt8.ofNat_toNat]

theorem percentDecode_bytes {bs : List UInt8} (h : ∀ b ∈ bs, unreserved b = false)
    (pending : List UInt8) (cs : List Char) :
    percentDecode fs.decodeReplace pending (bs.flatMap encodeByte ++ cs) =
      percentDecode fs.decodeReplace (pending ++ bs) cs := by
  induction bs generalizing pending with
  | nil => simp
  | cons b bs ih =>
      have hb : encodeByte b = ['%', upperHex (b.toNat / 16), upperHex (b.toNat % 16)] := by
        simp [encodeByte, h b (.head _)]
      rw [List.flatMap_cons, hb, List.append_assoc, List.cons_append, List.cons_append,
        List.cons_append, List.nil_append, percentDecode_escape, ih fun b hb => h b (.tail _ hb),
        List.append_assoc, List.singleton_append]

theorem percentDecode_plain {c : Char} (hc : c ≠ '%') (pending : List UInt8) (cs : List Char) :
    percentDecode fs.decodeReplace pending (c :: cs) =
      flush fs.decodeReplace pending ++ c :: percentDecode fs.decodeReplace [] cs := by
  rw [percentDecode]
  rintro _ _ _ rfl
  exact absurd rfl hc

theorem flush_text (text : List Char) :
    flush fs.decodeReplace (text.flatMap String.utf8EncodeChar) = text := by
  unfold flush
  split
  next hnil =>
    cases text with
    | nil => rfl
    | cons c cs =>
        simp only [List.flatMap_cons, List.isEmpty_iff, List.append_eq_nil_iff] at hnil
        exact absurd hnil.1 String.utf8EncodeChar_ne_nil
  next =>
    have hbytes : (⟨(text.flatMap String.utf8EncodeChar).toArray⟩ : ByteArray) =
        (String.ofList text).toUTF8 := by
      rw [← List.data_toByteArray]
      rfl
    rw [hbytes, fs.decode_text, String.toList_ofList]

theorem encodeChar_cases (c : Char) :
    ((String.utf8EncodeChar c).flatMap encodeByte = [c] ∧ c ≠ '%') ∨
      ∀ b ∈ String.utf8EncodeChar c, unreserved b = false := by
  unfold String.utf8EncodeChar
  dsimp only
  split
  next h =>
    have hbyte : (UInt8.ofNat c.val.toNat).toNat = c.toNat := by
      rw [UInt8.toNat_ofNat', Nat.mod_eq_of_lt (by omega)]
      rfl
    cases hb : unreserved (UInt8.ofNat c.val.toNat) with
    | true =>
        have hchar := unreserved_char _ hb
        rw [hbyte, Char.ofNat_toNat] at hchar
        refine .inl ⟨?_, hchar⟩
        rw [List.flatMap_cons, List.flatMap_nil, List.append_nil, encodeByte, if_pos hb, hbyte,
          Char.ofNat_toNat]
    | false => exact .inr (by simpa using hb)
  next =>
    refine .inr fun b hb => unreserved_high b ?_
    -- every byte of a longer character is at least 128
    split at hb
    · simp only [List.mem_cons, List.not_mem_nil, or_false] at hb
      rcases hb with rfl | rfl <;> rw [UInt8.toNat_ofNat'] <;> omega
    · split at hb
      · simp only [List.mem_cons, List.not_mem_nil, or_false] at hb
        rcases hb with rfl | rfl | rfl <;> rw [UInt8.toNat_ofNat'] <;> omega
      · simp only [List.mem_cons, List.not_mem_nil, or_false] at hb
        rcases hb with rfl | rfl | rfl | rfl <;> rw [UInt8.toNat_ofNat'] <;> omega

theorem percentDecode_text (text before : List Char) :
    percentDecode fs.decodeReplace (before.flatMap String.utf8EncodeChar)
      ((text.flatMap String.utf8EncodeChar).flatMap encodeByte) = before ++ text := by
  -- the escapes that wait to be decoded always spell whole characters
  induction text generalizing before with
  | nil =>
      simp only [List.flatMap_nil, List.append_nil]
      rw [percentDecode, flush_text]
  | cons c text ih =>
      rw [List.flatMap_cons, List.flatMap_append]
      rcases encodeChar_cases c with ⟨hkept, hc⟩ | hescaped
      · -- a kept character ends the row of escapes before it
        have hrest := ih []
        rw [List.flatMap_nil, List.nil_append] at hrest
        rw [hkept, List.singleton_append, percentDecode_plain fs hc, flush_text, hrest]
      · have hrow : before.flatMap String.utf8EncodeChar ++ String.utf8EncodeChar c =
            (before ++ [c]).flatMap String.utf8EncodeChar := by simp
        rw [percentDecode_bytes fs hescaped, hrow, ih, List.append_assoc, List.singleton_append]

theorem encode_eq (text : List Char) :
    encode text = (text.flatMap String.utf8EncodeChar).flatMap encodeByte := by
  unfold encode
  have hbytes : (String.ofList text).toUTF8 =
      (text.flatMap String.utf8EncodeChar).toByteArray := rfl
  rw [hbytes, List.data_toByteArray]

theorem percentDecode_encode (text : List Char) :
    percentDecode fs.decodeReplace [] (encode text) = text := by
  rw [encode_eq]
  exact percentDecode_text fs text []

end

/-! ## Names -/

theorem partsOf_intercalate {names : List Name} (h : ∀ n ∈ names, IsName n) (hne : names ≠ []) :
    partsOf (['/'].intercalate names) = names := by
  unfold partsOf
  rw [List.splitOn_intercalate '/' (fun n hn => (h n hn).2.2.2) hne, List.filter_eq_self]
  exact fun n hn => by simpa using ⟨(h n hn).1, (h n hn).2.1⟩

theorem partsOf_pathText {names : List Name} (h : ∀ n ∈ names, IsName n) :
    partsOf (pathText names) = names := by
  have hcons : partsOf (pathText names) = partsOf (['/'].intercalate names) := by
    simp [partsOf, pathText, List.splitOn_cons_eq_if_modifyHead]
  rw [hcons]
  cases names with
  | nil => rfl
  | cons n names => exact partsOf_intercalate h (by simp)

theorem partsOf_asPosix {names : List Name} (h : ∀ n ∈ names, IsName n) :
    partsOf (asPosix names) = names := by
  unfold asPosix
  split
  next hnil => subst hnil; rfl
  next hne => exact partsOf_intercalate h hne

theorem asPosix_head {names : List Name} (h : ∀ n ∈ names, IsName n) :
    (asPosix names).head? ≠ some '/' ∧ asPosix names ≠ [] := by
  unfold asPosix
  cases names with
  | nil => decide
  | cons n names =>
      obtain ⟨hne, -, -, hslash⟩ := h n (.head _)
      obtain ⟨c, cs, rfl⟩ := List.exists_cons_of_ne_nil hne
      have hc : c ≠ '/' := fun hc => hslash (hc ▸ .head _)
      cases names <;> simp [List.intercalate, hc]

theorem parent_not_asPosix {names : List Name} (h : ∀ n ∈ names, IsName n) :
    ((asPosix names).splitOn '/').contains ['.', '.'] = false := by
  unfold asPosix
  split
  next => decide
  next hne =>
    rw [List.splitOn_intercalate '/' (fun n hn => (h n hn).2.2.2) hne]
    exact Bool.eq_false_iff.2 fun hin => (h _ (List.contains_iff_mem.1 hin)).2.2.1 rfl

/-! ## URIs -/

theorem encode_free (text : List Char) : ∀ c ∈ encode text, c ≠ '#' ∧ c ≠ '?' := by
  intro c hc
  obtain ⟨b, -, hb⟩ := List.mem_flatMap.1 hc
  simpa using List.all_eq_true.1 (encodeByte_free b) c hb

/-- The characters that `confined_path` opens. -/
def Spelled (text : List Char) : Prop :=
  ∀ c ∈ text, ¬ c.toNat < 0x20 ∧ c ≠ '\x7f' ∧ c ≠ '\\'

theorem spelled_iff {text : List Char} : Spelled text ↔
    (text.any fun c => decide (c.toNat < 0x20) || c == '\x7f' || c == '\\') = false := by
  rw [List.any_eq_false]
  refine forall₂_congr fun c _ => ?_
  simp only [Bool.or_eq_true, decide_eq_true_eq, beq_iff_eq, not_or, and_assoc]

instance (text : List Char) : Decidable (Spelled text) := decidable_of_iff _ spelled_iff.symm

section

variable {fs : FileSystem} {root name : List Name}

theorem uri_text (text suffix : List Char) (hs : suffix = [] ∨ suffix.head? = some '#') :
    ((((String.ofList ("file:".toList ++ encode text ++ suffix)).toList.dropWhile
      (· != ':')).drop 1).takeWhile (· != '#')).takeWhile (· != '?') = encode text := by
  have hfile : "file:".toList = ['f', 'i', 'l', 'e', ':'] := rfl
  have hdrop : ((String.ofList ("file:".toList ++ encode text ++ suffix)).toList.dropWhile
      (· != ':')).drop 1 = encode text ++ suffix := by
    rw [String.toList_ofList, hfile]
    simp
  have hsuffix : suffix.takeWhile (· != '#') = [] := by
    rcases hs with rfl | hs
    · rfl
    · obtain ⟨rest, rfl⟩ := List.head?_eq_some_iff.1 hs
      rfl
  rw [hdrop, List.takeWhile_append_of_pos fun c hc => by simpa using (encode_free text c hc).1,
    hsuffix, List.append_nil, List.takeWhile_eq_self_iff]
  exact fun c hc => by simpa using (encode_free text c hc).2

theorem uri_scheme (text suffix : List Char) :
    schemeOf (String.ofList ("file:".toList ++ encode text ++ suffix)) = "file" := by
  have hfile : "file:".toList = ['f', 'i', 'l', 'e', ':'] := rfl
  have htake : (String.ofList ("file:".toList ++ encode text ++ suffix)).toList.takeWhile
      (· != ':') = ['f', 'i', 'l', 'e'] := by
    rw [String.toList_ofList, hfile]
    simp
  rw [schemeOf, htake]
  decide

theorem confinedPath_fileUri (h : fs.realpath (root ++ name) = some (root ++ name))
    (hname : Spelled (asPosix name)) {suffix : List Char}
    (hs : suffix = [] ∨ suffix.head? = some '#') :
    confinedPath (fs.checkout root)
      (String.ofList ("file:".toList ++ encode (asPosix name) ++ suffix)) =
      .ok (String.ofList (pathText (root ++ name))) := by
  have hplain := fs.plain h
  have hnames : ∀ n ∈ name, IsName n := fun n hn => hplain n (List.mem_append_right _ hn)
  have hroot : fs.realpath root = some root := fs.settled h
  obtain ⟨hhead, hne⟩ := asPosix_head hnames
  have hresolve : (fs.checkout root).resolve (String.ofList (asPosix name)) =
      some (String.ofList (pathText (root ++ name))) := by
    simp only [FileSystem.checkout, hroot, Option.getD_some, String.toList_ofList, joined,
      if_neg hhead, partsOf_asPosix hnames, h, Option.map_some]
  have hinside : (fs.checkout root).inside (String.ofList (pathText (root ++ name))) = true := by
    simp only [FileSystem.checkout, hroot, Option.getD_some, String.toList_ofList,
      partsOf_pathText hplain]
    exact List.isPrefixOf_iff_prefix.2 (List.prefix_append ..)
  have hdecode : percentDecode (fs.checkout root).decodeReplace [] (encode (asPosix name)) =
      asPosix name := percentDecode_encode fs _
  have hdot : hasEncodedDot (encode (asPosix name)) = false := hasEncodedDot_bytes _
  unfold confinedPath
  simp only [uri_scheme, uri_text _ _ hs, hdot, hdecode, ne_eq, not_true_eq_false, if_false,
    Bool.false_eq_true, hhead, spelled_iff.1 hname, parent_not_asPosix hnames, List.isEmpty_iff,
    hne, Bool.or_false, hresolve, hinside, if_true]

theorem confinedPath_unspelled {text suffix : List Char} (htext : ¬ Spelled text)
    (hhead : text.head? ≠ some '/') (hs : suffix = [] ∨ suffix.head? = some '#') :
    confinedPath (fs.checkout root) (String.ofList ("file:".toList ++ encode text ++ suffix)) =
      .error "control character or backslash in a file URI" := by
  have hdecode : percentDecode (fs.checkout root).decodeReplace [] (encode text) = text :=
    percentDecode_encode fs _
  have hdot : hasEncodedDot (encode text) = false := hasEncodedDot_bytes _
  rw [spelled_iff, Bool.not_eq_false] at htext
  unfold confinedPath
  simp only [uri_scheme, uri_text _ _ hs, hdot, hdecode, ne_eq, not_true_eq_false, if_false,
    Bool.false_eq_true, hhead, htext, if_true]

theorem confinedPath_confined {uri path : String}
    (h : confinedPath (fs.checkout root) uri = .ok path) :
    (relativeForm fs uri).head? ≠ some '/' ∧ ['.', '.'] ∉ (relativeForm fs uri).splitOn '/' ∧
      ∃ below, path = String.ofList (pathText ((fs.realpath root).getD root ++ below)) := by
  unfold confinedPath at h
  simp only at h
  split at h
  · cases h
  split at h
  · cases h
  split at h
  · cases h
  next hhead =>
  split at h
  · cases h
  split at h
  · cases h
  next hparent =>
  split at h
  · cases h
  next resolved hresolved =>
  split at h
  next hinside =>
    cases h
    simp only [Bool.or_eq_true, not_or, List.contains_iff_mem] at hparent
    refine ⟨hhead, hparent.2, ?_⟩
    simp only [FileSystem.checkout, Option.map_eq_some_iff] at hresolved hinside
    obtain ⟨target, htarget, rfl⟩ := hresolved
    rw [String.toList_ofList, partsOf_pathText (fs.plain htarget)] at hinside
    obtain ⟨below, rfl⟩ := List.isPrefixOf_iff_prefix.1 hinside
    exact ⟨below, rfl⟩
  next => cases h

end

/-! ## Quotes -/

theorem intercalate_cons {α : Type} (sep x : List α) {l : List (List α)} (hl : l ≠ []) :
    sep.intercalate (x :: l) = x ++ (sep ++ sep.intercalate l) := by
  obtain ⟨y, l, rfl⟩ := List.exists_cons_of_ne_nil hl
  simp [List.intercalate]

theorem intercalate_isPrefix {α : Type} (sep : List α) (a b : List (List α)) :
    sep.intercalate a <+: sep.intercalate (a ++ b) := by
  induction a with
  | nil => exact List.nil_prefix
  | cons x a ih =>
      cases a with
      | nil =>
          cases b with
          | nil => exact List.prefix_refl _
          | cons y b =>
              have hone : sep.intercalate [x] = x := by simp [List.intercalate]
              rw [List.singleton_append, intercalate_cons sep x (l := y :: b) (by simp), hone]
              exact List.prefix_append ..
      | cons y a =>
          rw [List.cons_append, intercalate_cons sep x (by simp), intercalate_cons sep x (by simp),
            List.prefix_append_right_inj, List.prefix_append_right_inj]
          exact ih

theorem intercalate_isSuffix {α : Type} (sep : List α) (a b : List (List α)) :
    sep.intercalate b <:+ sep.intercalate (a ++ b) := by
  induction a with
  | nil => exact List.suffix_refl _
  | cons x a ih =>
      by_cases hab : a ++ b = []
      · obtain ⟨-, rfl⟩ := List.append_eq_nil_iff.1 hab
        exact List.nil_suffix
      · rw [List.cons_append, intercalate_cons sep x hab]
        exact (ih.trans (List.suffix_append ..)).trans (List.suffix_append ..)

theorem rangeText_isInfix (content : List Char) (first last : Nat) :
    rangeText (textLines content) first last <:+: content := by
  have hlines : ['\n'].intercalate (textLines content) <+: content := by
    have hjoin : ['\n'].intercalate (content.splitOn '\n') = content :=
      List.intercalate_splitOn '\n'
    unfold textLines
    dsimp only
    split
    next hlast =>
      have hprefix := intercalate_isPrefix ['\n'] (content.splitOn '\n').dropLast [[]]
      rwa [List.dropLast_append_getLast? [] hlast, hjoin] at hprefix
    next =>
      rw [hjoin]
  generalize textLines content = lines at hlines ⊢
  have hrange : ['\n'].intercalate ((lines.take last).drop (first - 1)) <:+:
      ['\n'].intercalate lines := by
    have hsuffix := intercalate_isSuffix ['\n'] ((lines.take last).take (first - 1))
      ((lines.take last).drop (first - 1))
    have hprefix := intercalate_isPrefix ['\n'] (lines.take last) (lines.drop last)
    rw [List.take_append_drop] at hsuffix hprefix
    exact hsuffix.isInfix.trans hprefix.isInfix
  exact ((List.rdropWhile_prefix _ _).isInfix.trans hrange).trans hlines.isInfix

theorem isPartOf_of_isInfix {text content : List Char} (h : text <:+: content) :
    isPartOf (String.ofList text) (String.ofList content) = true := by
  obtain ⟨before, after, rfl⟩ := h
  unfold isPartOf
  rw [String.toList_ofList, String.toList_ofList, List.any_eq_true]
  refine ⟨text ++ after, ?_, List.isPrefixOf_iff_prefix.2 (List.prefix_append ..)⟩
  rw [List.mem_tails, List.append_assoc]
  exact List.suffix_append ..

section

variable {lib : Stdlib} {digit : Char → Option Nat} {fs : FileSystem} {root : List Name}

theorem quoteFrom_ok {spec : List Char} {doc : Json}
    (h : quoteFrom lib digit fs root spec = .ok doc) :
    ∃ raw first last path data content uri,
      lineRange digit spec = some (raw, first, last) ∧
      (sourcePath fs root raw).bind fs.realpath = some path ∧
      root.isPrefixOf path = true ∧ readText fs path = some (data, content) ∧
      fileUri fs path root = some uri ∧
      doc = quote lib (rangeText (textLines content) first last) (uri ++ rangeSuffix first last)
        data := by
  unfold quoteFrom at h
  dsimp only at h
  split at h
  · cases h
  next raw first last hrange =>
  split at h
  · cases h
  next path hpath =>
  split at h
  · cases h
  next hinside =>
  split at h
  · cases h
  next data content hread =>
  split at h
  · cases h
  split at h
  · cases h
  split at h
  · cases h
  split at h
  · cases h
  next uri huri =>
  cases h
  exact ⟨raw, first, last, path, data, content, uri, hrange, hpath, by simpa using hinside, hread,
    huri, rfl⟩

theorem quoteFrom_eq {spec raw content uri : List Char} {first last : Nat} {path : List Name}
    {data : ByteArray} (hrange : lineRange digit spec = some (raw, first, last))
    (hpath : (sourcePath fs root raw).bind fs.realpath = some path)
    (hinside : root.isPrefixOf path = true) (hread : readText fs path = some (data, content))
    (hlines : first ≤ last ∧ last ≤ (textLines content).length)
    (htext : Text.stripChars (rangeText (textLines content) first last) ≠ [])
    (hlength : (rangeText (textLines content) first last).length ≤ maxTextChars)
    (huri : fileUri fs path root = some uri) :
    quoteFrom lib digit fs root spec =
      .ok (quote lib (rangeText (textLines content) first last) (uri ++ rangeSuffix first last)
        data) := by
  have hlines' : ¬ (last < first ∨ (textLines content).length < last) := by omega
  unfold quoteFrom
  simp only [hrange, hpath, hinside, hread, hlines', htext, Nat.not_lt.2 hlength, huri,
    Bool.not_true, Bool.false_eq_true, if_false]

theorem readText_eq_some {path : List Name} {data : ByteArray} {content : List Char}
    (h : readText fs path = some (data, content)) :
    fs.read path = some data ∧ data.size ≤ maxSourceBytes ∧
      String.fromUTF8? data = some (String.ofList content) := by
  unfold readText at h
  split at h
  · cases h
  next raw hread =>
    obtain ⟨hraw, hsize⟩ := Option.filter_eq_some_iff.1 hread
    obtain ⟨text, htext, heq⟩ := Option.map_eq_some_iff.1 h
    cases heq
    exact ⟨hraw, by simpa using hsize, by rw [htext, String.ofList_toList]⟩

section

variable (text uri : List Char) (raw : ByteArray)

theorem quote_text : (quote lib text uri raw).get? "text" = some (.str (String.ofList text)) := rfl

theorem quote_source :
    (quote lib text uri raw).get? "source" = some (quoteSource lib uri raw) := rfl

theorem quoteSource_uri :
    (quoteSource lib uri raw).get? "uri" = some (.str (String.ofList uri)) := rfl

theorem quoteSource_digest :
    (quoteSource lib uri raw).get? "digest" = some (.str (rawDigest lib raw)) := rfl

end

theorem rangeSuffix_head (first last : Nat) : (rangeSuffix first last).head? = some '#' := by
  have hstart : "#L".toList = ['#', 'L'] := rfl
  unfold rangeSuffix
  split <;> simp [String.toList_append, hstart]

theorem quoteStatus_quoteFrom {spec : List Char} {doc : Json}
    (h : quoteFrom lib digit fs root spec = .ok doc)
    (hname : ∀ name, sourceFile digit fs root spec = some (root ++ name) → Spelled (asPosix name)) :
    quoteStatus lib (fs.checkout root) (doc.get? "text") ((doc.get? "source").getD .null) =
      .matched := by
  obtain ⟨raw, first, last, path, data, content, uri, hrange, hpath, hinside, hread, huri, rfl⟩ :=
    quoteFrom_ok h
  obtain ⟨name, rfl⟩ := List.isPrefixOf_iff_prefix.1 hinside
  obtain ⟨source, -, hreal⟩ := Option.bind_eq_some_iff.1 hpath
  have hsettled : fs.realpath (root ++ name) = some (root ++ name) :=
    fs.settled (r := []) (by rwa [List.append_nil])
  -- the URI of the quote leads back to the path the lines were read from
  have hspelled : Spelled (asPosix name) := hname name (by rw [sourceFile, hrange]; exact hpath)
  have huri' : uri = "file:".toList ++ encode (asPosix name) := by
    rw [fileUri, hsettled] at huri
    dsimp only at huri
    rw [if_pos hinside, List.drop_left] at huri
    exact (Option.some.inj huri).symm
  obtain ⟨hraw, hsize, htext⟩ := readText_eq_some hread
  have hparts : partsOf (String.ofList (pathText (root ++ name))).toList = root ++ name := by
    rw [String.toList_ofList, partsOf_pathText (fs.plain hreal)]
  have hcapped : readCapped (fs.checkout root) (String.ofList (pathText (root ++ name)))
      maxSourceBytes = some data := by
    simp only [readCapped, FileSystem.checkout, hparts, hraw, Option.filter_some, hsize,
      decide_true, if_true]
  have hpresent : (fs.checkout root).present (String.ofList (pathText (root ++ name))) = true := by
    simp only [FileSystem.checkout, hparts]
    exact fs.present_of_read hraw
  have hconfined := confinedPath_fileUri hsettled hspelled
    (.inr (rangeSuffix_head first last))
  rw [← huri'] at hconfined
  have hpart := isPartOf_of_isInfix (rangeText_isInfix content first last)
  simp only [quoteStatus, quote_text, quote_source, quoteSource_uri, quoteSource_digest,
    Option.getD_some, hconfined, hpresent, hcapped, htext, hpart, Bool.not_true,
    Bool.false_eq_true, if_false, ne_eq, not_true_eq_false, if_true]

/-- URIs lead back to the files they were made for and to nothing outside the root, and a quote
that was taken from a file is found in it. -/
theorem quote_round_trip (lib : Stdlib) (digit : Char → Option Nat) (fs : FileSystem)
    (root : List Name) :
    (∀ path name, fs.realpath path = some (root ++ name) → Spelled (asPosix name) →
      ∃ uri, fileUri fs path root = some uri ∧
        ∀ suffix : List Char, suffix = [] ∨ suffix.head? = some '#' →
          confinedPath (fs.checkout root) (String.ofList (uri ++ suffix)) =
            .ok (String.ofList (pathText (root ++ name)))) ∧
    (∀ uri path, confinedPath (fs.checkout root) uri = .ok path →
      (relativeForm fs uri).head? ≠ some '/' ∧
        ['.', '.'] ∉ (relativeForm fs uri).splitOn '/' ∧
        ∃ below, path = String.ofList (pathText ((fs.realpath root).getD root ++ below))) ∧
    (∀ spec doc, quoteFrom lib digit fs root spec = .ok doc →
      (∀ name, sourceFile digit fs root spec = some (root ++ name) → Spelled (asPosix name)) →
      quoteStatus lib (fs.checkout root) (doc.get? "text") ((doc.get? "source").getD .null) =
        .matched) := by
  refine ⟨fun path name h hname => ?_, fun uri path h => confinedPath_confined h,
    fun spec doc h hname => quoteStatus_quoteFrom h hname⟩
  have hinside : root.isPrefixOf (root ++ name) = true :=
    List.isPrefixOf_iff_prefix.2 (List.prefix_append ..)
  have hsettled : fs.realpath (root ++ name) = some (root ++ name) :=
    fs.settled (r := []) (by rwa [List.append_nil])
  refine ⟨"file:".toList ++ encode (asPosix name), ?_, fun suffix hs =>
    confinedPath_fileUri hsettled hname hs⟩
  rw [fileUri, h]
  dsimp only
  rw [if_pos hinside, List.drop_left]

end

/-! ### A file of a name that has to be escaped -/

/-- A machine without links: the files there are, and the working directory. -/
def plainFiles (files : List (List Name × String)) (home : List Name) : FileSystem where
  realpath path := if ∀ n ∈ path, IsName n then some path else none
  expanduser raw := some (joined home raw)
  present path := (files.lookup path).isSome
  read path := (files.lookup path).map String.toUTF8
  decodeReplace raw := (String.fromUTF8? raw).getD ""
  plain := by
    intro p q h
    split at h
    next hp => exact (Option.some.inj h) ▸ hp
    next => cases h
  settled := by
    intro p q r h
    split at h
    next hp =>
      obtain rfl := Option.some.inj h
      exact if_pos fun n hn => hp n (List.mem_append_left _ hn)
    next => cases h
  present_of_read := by
    intro p raw h
    obtain ⟨text, htext, -⟩ := Option.map_eq_some_iff.1 h
    rw [htext]
    rfl
  decode_text text := by rw [fromUTF8_toUTF8, Option.getD_some]

def sampleRoot : List Name := ["repo".toList]

/-- The value of an ASCII digit. -/
def asciiDigit (c : Char) : Option Nat := if c.isDigit then some (c.toNat - 48) else none

/-- One file in the root. -/
def oneFile (name : Name) (content : String) : FileSystem :=
  plainFiles [(sampleRoot ++ [name], content)] sampleRoot

theorem oneFile_readText {name : Name} {content : String}
    (hsize : content.toUTF8.size ≤ maxSourceBytes) :
    readText (oneFile name content) (sampleRoot ++ [name]) =
      some (content.toUTF8, content.toList) := by
  have hread : (oneFile name content).read (sampleRoot ++ [name]) = some content.toUTF8 := by
    simp only [oneFile, plainFiles, List.lookup_cons_self, Option.map_some]
  simp only [readText, hread, Option.filter_some, hsize, decide_true, if_true, fromUTF8_toUTF8,
    Option.map_some]

theorem oneFile_realpath {name : Name} {content : String} (hname : IsName name) :
    (oneFile name content).realpath (sampleRoot ++ [name]) = some (sampleRoot ++ [name]) := by
  refine if_pos fun n hn => ?_
  rcases List.mem_append.1 hn with hn | hn
  · exact (by decide : ∀ n ∈ sampleRoot, IsName n) n hn
  · rwa [List.mem_singleton.1 hn]

theorem oneFile_fileUri {name : Name} {content : String} (hname : IsName name) :
    fileUri (oneFile name content) (sampleRoot ++ [name]) sampleRoot =
      some ("file:".toList ++ encode name) := by
  have hinside : sampleRoot.isPrefixOf (sampleRoot ++ [name]) = true :=
    List.isPrefixOf_iff_prefix.2 (List.prefix_append ..)
  have hposix : asPosix [name] = name := by simp [asPosix, List.intercalate]
  rw [fileUri, oneFile_realpath hname]
  dsimp only
  rw [if_pos hinside, List.drop_left, hposix]

theorem oneFile_quote {name spec : List Char} {content : String} {first last : Nat}
    (hname : IsName name) (hrange : lineRange asciiDigit spec = some (name, first, last))
    (hrelative : (name.take 5).map Char.toLower ≠ "file:".toList)
    (hjoined : joined sampleRoot name = sampleRoot ++ [name])
    (hsize : content.toUTF8.size ≤ maxSourceBytes)
    (hlines : first ≤ last ∧ last ≤ (textLines content.toList).length)
    (htext : Text.stripChars (rangeText (textLines content.toList) first last) ≠ [])
    (hlength : (rangeText (textLines content.toList) first last).length ≤ maxTextChars) :
    sourceFile asciiDigit (oneFile name content) sampleRoot spec = some (sampleRoot ++ [name]) ∧
      quoteFrom sampleStdlib asciiDigit (oneFile name content) sampleRoot spec =
        .ok (quote sampleStdlib (rangeText (textLines content.toList) first last)
          ("file:".toList ++ encode name ++ rangeSuffix first last) content.toUTF8) := by
  have hsource : sourcePath (oneFile name content) sampleRoot name =
      some (sampleRoot ++ [name]) := by
    rw [sourcePath, if_neg hrelative, ← hjoined]
    rfl
  have hpath : (sourcePath (oneFile name content) sampleRoot name).bind
      (oneFile name content).realpath = some (sampleRoot ++ [name]) := by
    rw [hsource, Option.bind_some, oneFile_realpath hname]
  refine ⟨by rw [sourceFile, hrange]; exact hpath, ?_⟩
  exact quoteFrom_eq hrange hpath (List.isPrefixOf_iff_prefix.2 (List.prefix_append ..))
    (oneFile_readText hsize) hlines htext hlength (oneFile_fileUri hname)

/-- A fragment mark and an escape in the name, and the line ends of Windows in the text. -/
theorem quote_round_trip_sample :
    ∃ doc, quoteFrom sampleStdlib asciiDigit (oneFile "a#%2e é.md".toList "keep\r\nthis\r\n")
        sampleRoot "a#%2e é.md#L1-L2".toList = .ok doc ∧
      quoteStatus sampleStdlib
        ((oneFile "a#%2e é.md".toList "keep\r\nthis\r\n").checkout sampleRoot)
        (doc.get? "text") ((doc.get? "source").getD .null) = .matched := by
  obtain ⟨hsource, hquote⟩ := @oneFile_quote "a#%2e é.md".toList "a#%2e é.md#L1-L2".toList
    "keep\r\nthis\r\n" 1 2
    (by decide) (by decide) (by decide) (by decide)
    (by decide) (by decide) (by decide) (by decide)
  refine ⟨_, hquote, (quote_round_trip ..).2.2 _ _ hquote fun name hname => ?_⟩
  obtain rfl := List.append_cancel_left (Option.some.inj (hsource.symm.trans hname))
  decide

/-- A file is quoted under a name with a backslash, and the quote is never opened. -/
theorem backslash_not_accessed :
    ∃ doc, quoteFrom sampleStdlib asciiDigit (oneFile "a\\b.md".toList "keep\n") sampleRoot
        "a\\b.md#L1".toList = .ok doc ∧
      quoteStatus sampleStdlib ((oneFile "a\\b.md".toList "keep\n").checkout sampleRoot)
        (doc.get? "text") ((doc.get? "source").getD .null) =
        .notAccessed "control character or backslash in a file URI" := by
  obtain ⟨-, hquote⟩ := @oneFile_quote "a\\b.md".toList "a\\b.md#L1".toList "keep\n" 1 1
    (by decide) (by decide) (by decide) (by decide)
    (by decide) (by decide) (by decide) (by decide)
  refine ⟨_, hquote, ?_⟩
  have hrefused := @confinedPath_unspelled (oneFile "a\\b.md".toList "keep\n") sampleRoot
    "a\\b.md".toList (rangeSuffix 1 1) (by decide) (by decide)
    (.inr (rangeSuffix_head 1 1))
  simp only [quoteStatus, quote_text, quote_source, quoteSource_uri, Option.getD_some, hrefused]

end TrwMcp.Handoff.Quotes

import TrwMcp.Intent.LedgerChain

/-!
# Ledgers the record calls produce

A line the calls write is printable, so the file splits into the lines written; each is read back
as the entry it was written for, so the chain verifies and the next call extends it. A line cut
short, or whole but without its checkpoint, leaves a file that no longer verifies.
-/

namespace TrwMcp.Intent

open Handoff Lib

variable {lib : Stdlib}

/-! ## Printable text -/

def isPrintable (c : Char) : Prop := 32 ≤ c.toNat ∧ c.toNat ≤ 126

theorem isPrintable_hexDigit : ∀ d < 16, isPrintable (hexDigit d) := by
  unfold isPrintable
  decide

theorem isPrintable_unicodeEscape {n : Nat} (hn : n < 0x10000) :
    ∀ c ∈ unicodeEscape n, isPrintable c := by
  have hlit : isPrintable '\\' ∧ isPrintable 'u' := by
    unfold isPrintable
    decide
  intro c hc
  simp only [unicodeEscape, List.mem_cons, List.not_mem_nil, or_false] at hc
  rcases hc with rfl | rfl | rfl | rfl | rfl | rfl
  · exact hlit.1
  · exact hlit.2
  all_goals
    apply isPrintable_hexDigit
    omega

theorem isPrintable_asciiChar (c : Char) : ∀ d ∈ asciiChar c, isPrintable d := by
  have hescape : ∀ e ∈ ['"', '\\', 'n', 'r', 't', 'b', 'f'], ∀ d ∈ ['\\', e], isPrintable d := by
    simp [isPrintable]
  have hvalid := char_toNat_valid c
  intro d hd
  unfold asciiChar at hd
  split at hd
  · exact hescape '"' (by simp) d hd
  split at hd
  · exact hescape '\\' (by simp) d hd
  split at hd
  · exact hescape 'n' (by simp) d hd
  split at hd
  · exact hescape 'r' (by simp) d hd
  split at hd
  · exact hescape 't' (by simp) d hd
  split at hd
  · exact hescape 'b' (by simp) d hd
  split at hd
  · exact hescape 'f' (by simp) d hd
  split at hd
  · next hprint =>
    obtain rfl := List.mem_singleton.mp hd
    exact hprint
  · obtain ⟨unit, hunit, hd⟩ := List.mem_flatMap.mp hd
    apply isPrintable_unicodeEscape ?_ d hd
    unfold utf16Units at hunit
    split at hunit
    · obtain rfl := List.mem_singleton.mp hunit
      omega
    · simp only [List.mem_cons, List.not_mem_nil, or_false] at hunit
      rcases hunit with hunit | hunit
      · omega
      · omega

theorem isPrintable_asciiString (s : String) : ∀ c ∈ asciiString s, isPrintable c := by
  have hquote : isPrintable '"' := by
    unfold isPrintable
    decide
  intro c hc
  simp only [asciiString, List.mem_cons, List.mem_append, List.mem_flatMap, List.not_mem_nil,
    or_false] at hc
  rcases hc with rfl | ⟨d, -, hd⟩ | rfl
  · exact hquote
  · exact isPrintable_asciiChar d c hd
  · exact hquote

theorem isPrintable_digit {c : Char} (h : c.isDigit) : isPrintable c := by
  simp only [Char.isDigit, Bool.and_eq_true, decide_eq_true_eq] at h
  have h1 : '0'.toNat ≤ c.toNat := UInt32.le_iff_toNat_le.mp h.1
  have h2 : c.toNat ≤ '9'.toNat := UInt32.le_iff_toNat_le.mp h.2
  have h3 : '0'.toNat = 48 ∧ '9'.toNat = 57 := by decide
  unfold isPrintable
  omega

theorem isPrintable_flat {v : Json} (hv : Flat v) :
    ∀ c ∈ dumps lib compact v, isPrintable c := by
  rcases hv with ⟨s, rfl⟩ | ⟨k, rfl, -⟩
  · exact isPrintable_asciiString s
  · intro c hc
    rcases int_text_chars (k : Int) c hc with rfl | hd
    · unfold isPrintable
      decide
    · exact isPrintable_digit hd

theorem mem_intercalate {item : List Char} {texts : List (List Char)} {c : Char}
    (h : c ∈ item.intercalate texts) : c ∈ item ∨ ∃ t ∈ texts, c ∈ t := by
  induction texts with
  | nil => simp at h
  | cons t texts ih =>
      cases texts with
      | nil => exact .inr ⟨t, by simp, by simpa using h⟩
      | cons u texts =>
          rw [List.intercalate_cons_cons, List.mem_append, List.mem_append] at h
          rcases h with (h | h) | h
          · exact .inr ⟨t, by simp, h⟩
          · exact .inl h
          · rcases ih h with h | ⟨v, hv, h⟩
            · exact .inl h
            · exact .inr ⟨v, List.mem_cons_of_mem _ hv, h⟩

/-- The text of an entry, without its line feed. -/
def entryText (lib : Stdlib) (entry : Entry) : List Char := dumps lib compact (.obj entry)

theorem isPrintable_entryText {entry : Entry} (hflat : ∀ m ∈ entry, Flat m.2) :
    ∀ c ∈ entryText lib entry, isPrintable c := by
  have hlit : ∀ c ∈ ['\x7b', '\x7d', ',', ':'], isPrintable c := by
    simp [isPrintable]
  intro c hc
  rw [entryText, dumps_obj] at hc
  simp only [List.mem_cons, List.mem_append, List.not_mem_nil, or_false] at hc
  rcases hc with rfl | hc | rfl
  · exact hlit _ (by simp)
  · rcases mem_intercalate hc with hc | ⟨t, ht, hc⟩
    · exact hlit c (by simp only [compact, List.mem_singleton] at hc; simp [hc])
    · obtain ⟨m, hm, rfl⟩ := List.mem_map.mp ht
      simp only [dumpsMember, compact, List.mem_append, List.mem_singleton] at hc
      rcases hc with (hc | rfl) | hc
      · exact isPrintable_asciiString m.1 c hc
      · exact hlit _ (by simp)
      · exact isPrintable_flat (hflat m (mem_sortByKey.mp hm)) c hc
  · exact hlit _ (by simp)

/-! ## Lines -/

theorem not_isLineBreak {c : Char} (h : isPrintable c) : isLineBreak c = false := by
  unfold isPrintable at h
  simp only [isLineBreak, List.mem_cons, List.not_mem_nil, or_false, decide_eq_false_iff_not,
    not_or]
  refine ⟨?_, ?_, ?_, ?_, ?_, ?_, ?_, ?_, ?_, ?_⟩ <;> rintro rfl <;> revert h <;> decide

theorem splitLines_cons {c : Char} (h : isPrintable c) (cs : List Char) :
    splitLines (c :: cs) = (c :: (splitLines cs).1, (splitLines cs).2) := by
  have hcr : c ≠ '\r' := by
    rintro rfl
    revert h
    unfold isPrintable
    decide
  rw [splitLines]
  · simp [not_isLineBreak h]
  · rintro rest rfl
    exact absurd rfl hcr

theorem splitLines_line {line : List Char} (h : ∀ c ∈ line, isPrintable c) (rest : List Char) :
    splitLines (line ++ '\n' :: rest) =
      (line, if rest.isEmpty then [] else (splitLines rest).1 :: (splitLines rest).2) := by
  induction line with
  | nil =>
      rw [List.nil_append, splitLines]
      · cases rest with
        | nil => rfl
        | cons c rest => simp [isLineBreak]
      · rintro rest heq
        exact absurd heq (by simp)
  | cons c line ih =>
      rw [List.cons_append, splitLines_cons (h c (by simp)),
        ih fun d hd => h d (List.mem_cons_of_mem _ hd)]

theorem splitLines_last {line : List Char} (h : ∀ c ∈ line, isPrintable c) :
    splitLines line = (line, []) := by
  induction line with
  | nil => rfl
  | cons c line ih =>
      rw [splitLines_cons (h c (by simp)), ih fun d hd => h d (List.mem_cons_of_mem _ hd)]

/-- The lines of a text, on characters. -/
def linesOf (cs : List Char) : List (List Char) :=
  if cs = [] then [] else (splitLines cs).1 :: (splitLines cs).2

theorem splitlines_eq (cs : List Char) :
    splitlines (String.ofList cs) = (linesOf cs).map String.ofList := by
  unfold splitlines linesOf
  by_cases h : cs = []
  · subst h
    rfl
  · have hne : String.ofList cs ≠ "" := by
      intro heq
      have := congrArg String.toList heq
      rw [String.toList_ofList] at this
      exact h this
    simp [h, hne, String.toList_ofList]

theorem linesOf_ne {cs : List Char} (h : cs ≠ []) :
    linesOf cs = (splitLines cs).1 :: (splitLines cs).2 := if_neg h

theorem splitLines_subset {cs : List Char} (h : cs ≠ []) : (splitLines cs).2 ⊆ linesOf cs := by
  rw [linesOf_ne h]
  exact List.subset_cons_self _ _

theorem splitLines_char {c : Char} {cs : List Char}
    (h : ∀ rest, c = '\r' → cs = '\n' :: rest → False) :
    splitLines (c :: cs) =
      if isLineBreak c then ([], linesOf cs) else (c :: (splitLines cs).1, (splitLines cs).2) := by
  rw [splitLines]
  · cases cs with
    | nil => simp [linesOf, splitLines]
    | cons d cs => simp [linesOf]
  · rintro rest rfl hcs
    exact h rest rfl hcs

theorem splitLines_crlf (cs : List Char) : splitLines ('\r' :: '\n' :: cs) = ([], linesOf cs) := by
  rw [splitLines]
  cases cs with
  | nil => simp [linesOf, splitLines]
  | cons d cs => simp [linesOf]

theorem linesOf_line {line : List Char} (h : ∀ c ∈ line, isPrintable c) (rest : List Char) :
    linesOf (line ++ '\n' :: rest) = line :: linesOf rest := by
  unfold linesOf
  rw [splitLines_line h]
  cases rest <;> simp

theorem linesOf_last {line : List Char} (h : ∀ c ∈ line, isPrintable c) (hne : line ≠ []) :
    linesOf line = [line] := by
  rw [linesOf, if_neg hne, splitLines_last h]

theorem linesOf_lines {lines : List (List Char)} (h : ∀ line ∈ lines, ∀ c ∈ line, isPrintable c)
    (rest : List Char) :
    linesOf (lines.flatMap (fun line => line ++ ['\n']) ++ rest) = lines ++ linesOf rest := by
  induction lines with
  | nil => simp
  | cons line lines ih =>
      rw [List.flatMap_cons, List.append_assoc, List.append_assoc, List.singleton_append,
        linesOf_line (h line (by simp)), ih fun l hl => h l (List.mem_cons_of_mem _ hl),
        List.cons_append]

/-! ## One line read back -/

/-- An entry whose line is read back as the entry: flat, with distinct keys in order. -/
structure LineEntry (entry : Entry) : Prop where
  nonempty : entry ≠ []
  keys : (entry.map (·.1)).Nodup
  flat : ∀ m ∈ entry, Flat m.2
  sorted : sortByKey entry = entry

theorem entryText_eq {entry : Entry} (hsorted : sortByKey entry = entry) :
    entryText lib entry = flatText lib compact [] [] [] entry := by
  rw [entryText, dumps_obj, hsorted]
  simp [flatText, compact]

theorem stripText_braces (cs : List Char) :
    stripText (String.ofList ('\x7b' :: (cs ++ ['\x7d']))) =
      String.ofList ('\x7b' :: (cs ++ ['\x7d'])) := by
  have hopen : Regex.isSpace '\x7b' = false := by decide
  have hclose : Regex.isSpace '\x7d' = false := by decide
  rw [stripText, String.toList_ofList, List.dropWhile_cons_of_neg (by simp [hopen]),
    ← List.cons_append, List.rdropWhile_concat_neg _ _ _ (by simp [hclose])]

theorem readLine_entryText {entry : Entry} (h : LineEntry entry) (index : Nat) :
    readLine index (entryText lib entry) = .ok (some entry) := by
  have htext : entryText lib entry =
      '\x7b' :: ([','].intercalate (entry.map (dumpsMember lib compact)) ++ ['\x7d']) := by
    rw [entryText, dumps_obj, h.sorted]
    rfl
  have hparse := @parseText_flat lib [] [] [] [] [] (by simp) (by simp) (by simp) (by simp)
    (by simp) entry h.nonempty h.keys h.flat (.inl rfl)
  rw [show (⟨[','], [':']⟩ : Separators) = compact from rfl, ← entryText_eq h.sorted] at hparse
  have hne : String.ofList (entryText lib entry) ≠ "" := by
    intro heq
    have := congrArg String.toList heq
    rw [String.toList_ofList, htext] at this
    simp at this
  have hstrip : stripText (String.ofList (entryText lib entry)) =
      String.ofList (entryText lib entry) := by
    rw [htext]
    exact stripText_braces _
  rw [readLine, hstrip]
  simp only [hne, if_false, hparse]

theorem readLines_append {done entries : List Entry} {lines more : List String}
    (h : readLines done lines = .ok entries) :
    readLines done (lines ++ more) = readLines entries more := by
  induction lines generalizing done with
  | nil =>
      obtain rfl := Except.ok.inj h
      rfl
  | cons line lines ih =>
      rw [List.cons_append, readLines]
      rw [readLines] at h
      split at h
      · cases h
      · exact ih h
      · exact ih h

theorem readLines_entries {entries : List Entry} (h : ∀ e ∈ entries, LineEntry e)
    (done : List Entry) :
    readLines done ((entries.map (entryText lib)).map String.ofList) = .ok (done ++ entries) := by
  induction entries generalizing done with
  | nil => simp [readLines]
  | cons e entries ih =>
      rw [List.map_cons, List.map_cons, readLines, String.toList_ofList,
        readLine_entryText (h e (by simp))]
      simp only
      rw [ih (fun e' he' => h e' (List.mem_cons_of_mem _ he'))]
      simp

/-- The text of a ledger the calls wrote. -/
def ledgerText (lib : Stdlib) (entries : List Entry) : List Char :=
  entries.flatMap fun e => entryText lib e ++ ['\n']

theorem readEntries_append {entries : List Entry} (h : ∀ e ∈ entries, LineEntry e)
    (more : List Char) :
    readEntries (.text (ledgerText lib entries ++ more)) =
      readLines entries ((linesOf more).map String.ofList) := by
  have htext : ledgerText lib entries =
      (entries.map (entryText lib)).flatMap fun line => line ++ ['\n'] := by
    rw [ledgerText, List.flatMap_map]
  rw [readEntries, splitlines_eq, htext, linesOf_lines, List.map_append]
  · have := @readLines_append [] _ _ ((linesOf more).map String.ofList)
      (@readLines_entries lib entries h [])
    rwa [List.nil_append] at this
  · intro line hline
    obtain ⟨e, he, rfl⟩ := List.mem_map.mp hline
    exact isPrintable_entryText (h e he).flat

theorem readEntries_ledgerText {entries : List Entry} (h : ∀ e ∈ entries, LineEntry e) :
    readEntries (.text (ledgerText lib entries)) = .ok entries := by
  have := @readEntries_append lib entries h []
  rw [List.append_nil] at this
  rw [this]
  rfl

/-! ## One entry more -/

theorem sortByKey_record (fields : EntryFields) (seq : Nat) (prev : String) :
    sortByKey (fields.record lib seq prev) =
      [("block_class", .str fields.blockClass), ("claim_id", .str fields.claimId),
        ("control_point", .str fields.controlPoint),
        ("entry_hash", .str (entryHash lib prev (fields.entry seq prev))),
        ("file_path", .str fields.filePath), ("kind", .str fields.kind),
        ("prev_hash", .str prev), ("reason", .str fields.reason), ("seq", .int seq),
        ("session_id", .str fields.sessionId), ("ts", .str fields.ts)] := by
  simp [sortByKey, EntryFields.record, EntryFields.entry, EntryFields.members]

/-- The entry a completed call leaves in the file. -/
def EntryFields.written (lib : Stdlib) (fields : EntryFields) (seq : Nat) (prev : String) : Entry :=
  sortByKey (fields.record lib seq prev)

theorem entryText_written (fields : EntryFields) (seq : Nat) (prev : String) :
    ledgerLine lib (fields.record lib seq prev) =
      entryText lib (fields.written lib seq prev) ++ ['\n'] := by
  have hsorted : sortByKey (fields.written lib seq prev) = fields.written lib seq prev := by
    rw [EntryFields.written, sortByKey_record]
    simp [sortByKey]
  rw [ledgerLine, entryText, dumps_obj, dumps_obj, hsorted, EntryFields.written]

theorem lineEntry_written (fields : EntryFields) {seq : Nat} (prev : String)
    (hseq : (Nat.toDigits 10 seq).length ≤ maxIntDigits) :
    LineEntry (fields.written lib seq prev) := by
  rw [EntryFields.written]
  refine ⟨?_, ?_, ?_, ?_⟩
  · rw [sortByKey_record]
    simp
  · rw [sortByKey_record]
    simp
  · rw [sortByKey_record]
    simp [Flat, hseq]
  · rw [sortByKey_record]
    simp [sortByKey]

theorem written_chained (fields : EntryFields) (seq : Nat) (prev : String) :
    strField lib (fields.written lib seq prev) "prev_hash" = prev ∧
      strField lib (fields.written lib seq prev) "entry_hash" =
        entryHash lib prev (fields.entry seq prev) ∧
      entryHash lib prev (sansHash (fields.written lib seq prev)) =
        entryHash lib prev (fields.entry seq prev) := by
  rw [EntryFields.written, sortByKey_record]
  refine ⟨rfl, rfl, ?_⟩
  have hcanonical : canonicalText lib (sansHash
      [("block_class", .str fields.blockClass), ("claim_id", .str fields.claimId),
        ("control_point", .str fields.controlPoint),
        ("entry_hash", .str (entryHash lib prev (fields.entry seq prev))),
        ("file_path", .str fields.filePath), ("kind", .str fields.kind),
        ("prev_hash", .str prev), ("reason", .str fields.reason), ("seq", .int seq),
        ("session_id", .str fields.sessionId), ("ts", .str fields.ts)]) =
      canonicalText lib (fields.entry seq prev) := by
    rw [canonicalText, canonicalText, dumps_obj, dumps_obj]
    simp [sansHash, sortByKey, EntryFields.entry, EntryFields.members]
  exact congrArg (fun cs => lib.sha256 (String.ofList (prev.toList ++ cs)).toUTF8) hcanonical

theorem strField_record (fields : EntryFields) (seq : Nat) (prev : String) :
    strField lib (fields.record lib seq prev) "entry_hash" =
      entryHash lib prev (fields.entry seq prev) := rfl

theorem readCheckpoint_written {ledgerId head : String} {count : Nat}
    (hcount : (Nat.toDigits 10 count).length ≤ maxIntDigits) :
    readCheckpoint (.text (checkpointText lib ledgerId count head)) =
      some [("entry_count", .int count), ("head_hash", .str head), ("ledger_id", .str ledgerId)] := by
  have hparse := @parseText_flat lib ['\n', ' ', ' '] [' '] ['\n'] ['\n', ' ', ' '] ['\n']
    (by simp [isWs]) (by simp [isWs]) (by simp [isWs]) (by simp [isWs]) (by simp [isWs])
    [("entry_count", .int count), ("head_hash", .str head), ("ledger_id", .str ledgerId)]
    (by simp) (by simp) (by simp [Flat, hcount]) (.inr (by simp))
  rw [readCheckpoint, checkpointText, hparse]

/-! ## The invariant -/

/-- The files after the calls that wrote `entries`. -/
structure Good (lib : Stdlib) (entries : List Entry) (files : Files) : Prop where
  lines : ∀ e ∈ entries, LineEntry e
  short : (Nat.toDigits 10 entries.length).length ≤ maxIntDigits
  ledger : files.ledger.opened = .text (ledgerText lib entries)
  chain : ∃ head, walkChain lib genesisPrev 0 entries = (head, none) ∧
    ((entries = [] ∧ files.checkpoint = .missing) ∨
      ∃ id, files.checkpoint = .text (checkpointText lib id entries.length head))

/-- No call extends the ledger any more. -/
def Stuck (lib : Stdlib) (files : Files) : Prop :=
  (verifyOverrideLedger lib ⟨files.ledger.opened, files.checkpoint⟩).valid = false

@[simp] theorem opened_text (cs : List Char) : (FileText.text cs).opened = .text cs := rfl

theorem opened_opened (file : FileText) : file.opened.opened = file.opened := by
  cases file <;> rfl

theorem readEntries_opened (file : FileText) : readEntries file.opened = readEntries file := by
  cases file with
  | missing => rfl
  | unreadable exception => rfl
  | text cs => rfl

theorem chars_of_opened {file : FileText} {cs : List Char} (h : file.opened = .text cs) :
    file.chars = cs := by
  cases file with
  | missing =>
      obtain rfl : [] = cs := by simpa [FileText.opened] using h
      rfl
  | unreadable exception => simp [FileText.opened] at h
  | text t =>
      obtain rfl : t = cs := by simpa [FileText.opened] using h
      rfl

theorem verify_opened (files : Files) :
    verifyOverrideLedger lib ⟨files.ledger.opened, files.checkpoint⟩ =
      verifyOverrideLedger lib files := by
  unfold verifyOverrideLedger
  rw [readEntries_opened]

theorem good_empty : Good lib [] ⟨.missing, .missing⟩ :=
  ⟨by simp, by decide, rfl, genesisPrev, rfl, .inl ⟨rfl, rfl⟩⟩

theorem Good.read {entries : List Entry} {files : Files} (h : Good lib entries files) :
    readEntries files.ledger = .ok entries := by
  rw [← readEntries_opened, h.ledger]
  exact readEntries_ledgerText h.lines

theorem Good.checkpoint {entries : List Entry} {files : Files} (h : Good lib entries files) :
    ∃ head, walkChain lib genesisPrev 0 entries = (head, none) ∧
      match readCheckpoint files.checkpoint with
        | none => entries = []
        | some checkpoint => recordedCount checkpoint = entries.length ∧
            strField lib checkpoint "head_hash" = head := by
  obtain ⟨head, hwalk, ⟨hnil, hmissing⟩ | ⟨id, hcheckpoint⟩⟩ := h.chain
  · refine ⟨head, hwalk, ?_⟩
    rw [hmissing]
    exact hnil
  · refine ⟨head, hwalk, ?_⟩
    rw [hcheckpoint, readCheckpoint_written h.short]
    exact ⟨rfl, rfl⟩

theorem Good.verified {entries : List Entry} {files : Files} (h : Good lib entries files) :
    ∃ head, walkChain lib genesisPrev 0 entries = (head, none) ∧
      (verifyOverrideLedger lib files).valid = true ∧
      (verifyOverrideLedger lib files).entryCount = entries.length ∧
      (verifyOverrideLedger lib files).headHash = head := by
  obtain ⟨head, hwalk, hcheckpoint⟩ := h.checkpoint
  exact ⟨head, hwalk, verify_of h.read hwalk hcheckpoint⟩

theorem append_ok {files : Files} {fields : EntryFields} {fresh : String} {written : Written}
    (h : append lib files fields fresh = .ok written) :
    (verifyOverrideLedger lib files).valid = true ∧
      (Nat.toDigits 10 ((verifyOverrideLedger lib files).entryCount + 1)).length ≤ maxIntDigits ∧
      ∃ id, written =
        { line := ledgerLine lib (fields.record lib (verifyOverrideLedger lib files).entryCount
            (verifyOverrideLedger lib files).headHash)
          checkpoint := checkpointText lib id ((verifyOverrideLedger lib files).entryCount + 1)
            (strField lib (fields.record lib (verifyOverrideLedger lib files).entryCount
              (verifyOverrideLedger lib files).headHash) "entry_hash") } := by
  unfold append at h
  rw [verify_opened] at h
  simp only at h
  split_ifs at h with hvalid hdigits
  obtain rfl := Except.ok.inj h
  exact ⟨by simpa using hvalid, by omega, _, rfl⟩

theorem append_error {files : Files} {fields : EntryFields} {fresh reason : String}
    (h : append lib files fields fresh = .error reason)
    (hvalid : (verifyOverrideLedger lib files).valid = true) :
    maxIntDigits < (Nat.toDigits 10 ((verifyOverrideLedger lib files).entryCount + 1)).length := by
  unfold append at h
  rw [verify_opened] at h
  simp only at h
  split_ifs at h with hinvalid hdigits
  · simp [hvalid] at hinvalid
  · exact hdigits

theorem recordCall_ok {files : Files} {call : RecordCall} {ts fresh : String} {written : Written}
    (h : recordCall lib files call ts fresh = .ok written) :
    append lib files (call.fields ts) fresh = .ok written := by
  unfold recordCall at h
  split_ifs at h
  exact h

theorem toDigits_length_mono {n m : Nat} (h : (Nat.toDigits 10 (n + 1)).length ≤ m) :
    (Nat.toDigits 10 n).length ≤ m := by
  have hpos : 0 < m := lt_of_lt_of_le (List.length_pos_iff.mpr Nat.toDigits_ne_nil) h
  rw [Nat.length_toDigits_le_iff (by decide) hpos] at h ⊢
  omega

theorem Good.done {entries : List Entry} {files : Files} {call : RecordCall} {ts fresh : String}
    {written : Written} (h : Good lib entries files)
    (hcall : recordCall lib files call ts fresh = .ok written) :
    ∃ seq prev, Good lib (entries ++ [(call.fields ts).written lib seq prev])
      ⟨files.ledger.extend written.line, .text written.checkpoint⟩ := by
  obtain ⟨head, hwalk, -, hcount, hhead⟩ := h.verified
  obtain ⟨-, hdigits, id, rfl⟩ := append_ok (recordCall_ok hcall)
  rw [hcount] at hdigits
  refine ⟨entries.length, head, ?_⟩
  have hline := @lineEntry_written lib (call.fields ts) _ head (toDigits_length_mono hdigits)
  obtain ⟨hprev, hhash, hsans⟩ := @written_chained lib (call.fields ts) entries.length head
  refine ⟨?_, ?_, ?_, ?_⟩
  · intro e he
    rcases List.mem_append.mp he with he | he
    · exact h.lines e he
    · rw [List.mem_singleton.mp he]
      exact hline
  · rw [List.length_append, List.length_singleton]
    exact hdigits
  · rw [FileText.extend, chars_of_opened h.ledger, hcount, hhead, entryText_written, opened_text,
      ledgerText, ledgerText, List.flatMap_append]
    simp
  · refine ⟨entryHash lib head ((call.fields ts).entry entries.length head), ?_, .inr ⟨id, ?_⟩⟩
    · rw [walkChain_snoc]
      exact ⟨head, hwalk, hprev, hsans.trans hhash.symm, hhash⟩
    · rw [hcount, hhead, strField_record, List.length_append, List.length_singleton]

theorem linesOf_part {entry : Entry} (hflat : ∀ m ∈ entry, Flat m.2) {part : List Char}
    (hpart : part <+: entryText lib entry ++ ['\n']) (hne : part ≠ []) :
    ∃ rest, linesOf part = ['\x7b' :: rest] := by
  obtain ⟨body, hbody⟩ : ∃ body, entryText lib entry = '\x7b' :: body :=
    ⟨_, dumps_obj lib compact entry⟩
  have hprintable := @isPrintable_entryText lib _ hflat
  rcases List.prefix_concat_iff.mp hpart with rfl | hpart
  · have hall := linesOf_line hprintable []
    refine ⟨body, ?_⟩
    rw [hall, hbody]
    rfl
  · have hchars : ∀ c ∈ part, isPrintable c := fun c hc => hprintable c (hpart.subset hc)
    rw [linesOf_last hchars hne]
    obtain ⟨more, hmore⟩ := hpart
    cases part with
    | nil => exact absurd rfl hne
    | cons c part =>
        rw [hbody, List.cons_append] at hmore
        exact ⟨part, by rw [(List.cons.inj hmore).1]⟩

theorem readLine_brace (index : Nat) (rest : List Char) :
    readLine index ('\x7b' :: rest) ≠ .ok none := by
  have hstrip : stripText (String.ofList ('\x7b' :: rest)) ≠ "" := by
    intro heq
    have hchars := congrArg String.toList heq
    rw [stripText, String.toList_ofList, String.toList_ofList,
      List.dropWhile_cons_of_neg (by decide)] at hchars
    have hspace := List.rdropWhile_eq_nil_iff.mp hchars '\x7b' (by simp)
    exact absurd hspace (by decide)
  intro h
  unfold readLine at h
  simp only [hstrip, if_false] at h
  split at h <;> simp at h

/-- A call stopped inside its line, or before its checkpoint, leaves a ledger that does not
verify: the part of the line is one entry too many, or none. -/
theorem Good.stopped {entries : List Entry} {files : Files} {call : RecordCall}
    {ts fresh : String} {written : Written} {part : List Char} (h : Good lib entries files)
    (hcall : recordCall lib files call ts fresh = .ok written) (hne : part ≠ [])
    (hpart : part <+: written.line) :
    Stuck lib ⟨files.ledger.extend part, files.checkpoint⟩ := by
  obtain ⟨head, -, -, hcount, hhead⟩ := h.verified
  obtain ⟨-, hdigits, id, rfl⟩ := append_ok (recordCall_ok hcall)
  rw [hcount] at hdigits
  simp only [hcount, hhead, entryText_written] at hpart
  have hline := @lineEntry_written lib (call.fields ts) _ head (toDigits_length_mono hdigits)
  obtain ⟨rest, hrest⟩ := linesOf_part hline.flat hpart hne
  unfold Stuck
  rw [Bool.eq_false_iff]
  intro hvalid
  obtain ⟨entries', head', hread, -, hcheck, -, -⟩ := verify_valid hvalid
  rw [FileText.extend, chars_of_opened h.ledger, opened_text, readEntries_append h.lines, hrest]
    at hread
  -- the added line is an entry of its own
  have hlength : entries'.length = entries.length + 1 := by
    simp only [List.map_cons, List.map_nil, readLines, String.toList_ofList] at hread
    split at hread
    · cases hread
    · next hblank => exact absurd hblank (readLine_brace _ _)
    · obtain rfl := Except.ok.inj hread
      simp
  obtain ⟨_, -, hold⟩ := h.checkpoint
  simp only at hcheck
  cases hc : readCheckpoint files.checkpoint with
  | none =>
      simp only [hc] at hcheck
      rw [hcheck] at hlength
      simp at hlength
  | some checkpoint =>
      simp only [hc] at hcheck hold
      have := hcheck.1.symm.trans hold.1
      omega

theorem recordCall_stuck {files : Files} (h : Stuck lib files) (call : RecordCall)
    (ts fresh : String) : ∃ reason, recordCall lib files call ts fresh = .error reason := by
  cases hcall : recordCall lib files call ts fresh with
  | error reason => exact ⟨reason, rfl⟩
  | ok written =>
      have hvalid := (append_ok (recordCall_ok hcall)).1
      rw [Stuck, verify_opened] at h
      rw [h] at hvalid
      cases hvalid

/-! ## Runs -/

def Recorded.isStopped : Recorded → Bool
  | .stopped .. => true
  | _ => false

def Recorded.isDone : Recorded → Bool
  | .done .. => true
  | _ => false

theorem Good.refused {entries : List Entry} {files : Files} (h : Good lib entries files)
    {ledger : FileText} (hledger : ledger = files.ledger ∨ ledger = files.ledger.opened) :
    Good lib entries ⟨ledger, files.checkpoint⟩ := by
  refine ⟨h.lines, h.short, ?_, h.chain⟩
  rcases hledger with rfl | rfl
  · exact h.ledger
  · exact (opened_opened _).trans h.ledger

theorem run_good {events : List Recorded} {files : Files}
    (hrun : Run (RecordStep lib) ⟨.missing, .missing⟩ events files)
    (hevents : ∀ ev ∈ events, ev.isStopped = false) :
    ∃ entries, Good lib entries files ∧
      entries.length = (events.filter Recorded.isDone).length := by
  induction hrun with
  | nil => exact ⟨[], good_empty, rfl⟩
  | @snoc events files files' ev _ hstep ih =>
      obtain ⟨entries, hgood, hlength⟩ := ih fun e he => hevents e (List.mem_append_left _ he)
      cases hstep with
      | done hcall =>
          obtain ⟨seq, prev, hnext⟩ := hgood.done hcall
          refine ⟨_, hnext, ?_⟩
          rw [List.filter_append, List.length_append, List.length_append, hlength]
          rfl
      | refused _ ledger hledger =>
          refine ⟨entries, hgood.refused hledger, ?_⟩
          rw [List.filter_append, List.length_append, hlength]
          rfl
      | @stopped call ts fresh _ _ _ _ _ =>
          have hstopped := hevents (.stopped call ts fresh) (by simp)
          cases hstopped

theorem Stuck.step {files files' : Files} {ev : Recorded} (h : Stuck lib files)
    (hstep : RecordStep lib files ev files') :
    Stuck lib files' ∧ readEntries files'.ledger = readEntries files.ledger ∧
      files'.checkpoint = files.checkpoint := by
  cases hstep with
  | @done call ts fresh written hcall =>
      obtain ⟨reason, herror⟩ := recordCall_stuck h call ts fresh
      rw [hcall] at herror
      cases herror
  | @stopped call ts fresh written part hcall _ _ =>
      obtain ⟨reason, herror⟩ := recordCall_stuck h call ts fresh
      rw [hcall] at herror
      cases herror
  | refused _ ledger hledger =>
      rcases hledger with rfl | rfl
      · exact ⟨h, rfl, rfl⟩
      · refine ⟨?_, readEntries_opened _, rfl⟩
        unfold Stuck at h ⊢
        rwa [opened_opened]

theorem run_stuck {events : List Recorded} {files : Files}
    (hrun : Run (RecordStep lib) ⟨.missing, .missing⟩ events files) :
    (∀ ev ∈ events, ev.isStopped = false) ∨ Stuck lib files := by
  induction hrun with
  | nil => exact .inl (by simp)
  | @snoc events files files' ev hrun hstep ih =>
      rcases ih with hevents | hstuck
      · obtain ⟨entries, hgood, -⟩ := run_good hrun hevents
        cases hstep with
        | done hcall =>
            left
            intro e he
            rcases List.mem_append.mp he with he | he
            · exact hevents e he
            · rw [List.mem_singleton.mp he]
              rfl
        | refused _ ledger hledger =>
            left
            intro e he
            rcases List.mem_append.mp he with he | he
            · exact hevents e he
            · rw [List.mem_singleton.mp he]
              rfl
        | stopped hcall hne hpart => exact .inr (hgood.stopped hcall hne hpart)
      · exact .inr (hstuck.step hstep).1

/-- Two ledgers accepted under one checkpoint hold the same entries up to formatting. A ledger
the calls produced verifies, each completed call adding its entry after the others; and once a call
stops between its line and its checkpoint every later call is refused and changes no entry. -/
theorem override_ledger_integrity (hlib : ChainAssumptions lib) {events : List Recorded}
    {files : Files} (hrun : Run (RecordStep lib) ⟨.missing, .missing⟩ events files) :
    (∀ checkpoint ledger ledger',
      (verifyOverrideLedger lib ⟨ledger, checkpoint⟩).valid = true →
      (verifyOverrideLedger lib ⟨ledger', checkpoint⟩).valid = true →
        ∃ es es', readEntries ledger = .ok es ∧ readEntries ledger' = .ok es' ∧
          List.Forall₂ (SameEntry lib) es es') ∧
    ((∀ ev ∈ events, ev.isStopped = false) →
      (verifyOverrideLedger lib files).valid = true ∧
      ∃ entries, readEntries files.ledger = .ok entries ∧
        entries.length = (events.filter Recorded.isDone).length ∧
        (∀ call ts fresh files', RecordStep lib files (.done call ts fresh) files' →
          (verifyOverrideLedger lib files').valid = true ∧
          ∃ e, readEntries files'.ledger = .ok (entries ++ [e]) ∧
            ∀ m ∈ (call.fields ts).members, Dict.lookup e m.1 = some m.2) ∧
        ∀ call ts fresh reason, recordCall lib files call ts fresh = .error reason →
          stripText call.reason = "" ∨
            maxIntDigits < (Nat.toDigits 10 (entries.length + 1)).length) ∧
    ((∃ ev ∈ events, ev.isStopped = true) → ∀ call ts fresh,
      (∃ reason, recordCall lib files call ts fresh = .error reason) ∧
      ∀ ev files', RecordStep lib files ev files' →
        readEntries files'.ledger = readEntries files.ledger ∧
          files'.checkpoint = files.checkpoint) := by
  refine ⟨fun _ _ _ => verify_determines hlib, ?_, ?_⟩
  · intro hevents
    obtain ⟨entries, hgood, hlength⟩ := run_good hrun hevents
    obtain ⟨head, -, hvalid, hcount, -⟩ := hgood.verified
    refine ⟨hvalid, entries, hgood.read, hlength, ?_, ?_⟩
    · intro call ts fresh files' hstep
      cases hstep with
      | done hcall =>
          obtain ⟨seq, prev, hnext⟩ := hgood.done hcall
          obtain ⟨-, -, hvalid', -, -⟩ := hnext.verified
          refine ⟨hvalid', _, hnext.read, ?_⟩
          intro m hm
          rw [EntryFields.written, sortByKey_record]
          simp only [EntryFields.members, List.mem_cons, List.not_mem_nil, or_false] at hm
          rcases hm with rfl | rfl | rfl | rfl | rfl | rfl | rfl | rfl <;> rfl
    · intro call ts fresh reason herror
      unfold recordCall at herror
      split_ifs at herror with hblank
      · exact .inl hblank
      · right
        rw [← hcount]
        exact append_error herror hvalid
  · rintro ⟨ev, hev, hstopped⟩ call ts fresh
    have hstuck : Stuck lib files := by
      rcases run_stuck hrun with hevents | hstuck
      · rw [hevents ev hev] at hstopped
        cases hstopped
      · exact hstuck
    exact ⟨recordCall_stuck hstuck call ts fresh, fun ev files' hstep => (hstuck.step hstep).2⟩

/-! ## A library with an injective hash -/

/-- The bytes of a text as one number. -/
def codeOf (bytes : List UInt8) : Nat := bytes.foldl (fun n b => n * 256 + b.toNat) 1

theorem codeOf_snoc (bytes : List UInt8) (b : UInt8) :
    codeOf (bytes ++ [b]) = codeOf bytes * 256 + b.toNat := by
  simp [codeOf]

theorem codeOf_pos (bytes : List UInt8) : 1 ≤ codeOf bytes := by
  induction bytes using List.reverseRecOn with
  | nil => decide
  | append_singleton bytes b ih =>
      rw [codeOf_snoc]
      omega

theorem codeOf_lt (bytes : List UInt8) : codeOf bytes < 2 * 256 ^ bytes.length := by
  induction bytes using List.reverseRecOn with
  | nil => decide
  | append_singleton bytes b ih =>
      have hb := b.toNat_lt
      rw [codeOf_snoc, List.length_append, List.length_singleton, pow_succ]
      omega

theorem codeOf_injective : Function.Injective codeOf := by
  intro a
  induction a using List.reverseRecOn with
  | nil =>
      intro b h
      rcases List.eq_nil_or_concat b with rfl | ⟨b, y, rfl⟩
      · rfl
      · rw [List.concat_eq_append, codeOf_snoc] at h
        have hpos := codeOf_pos b
        have hone : codeOf [] = 1 := rfl
        omega
  | append_singleton a x ih =>
      intro b h
      have hx := x.toNat_lt
      rcases List.eq_nil_or_concat b with rfl | ⟨b, y, rfl⟩
      · rw [codeOf_snoc] at h
        have hpos := codeOf_pos a
        have hone : codeOf [] = 1 := rfl
        omega
      · have hy := y.toNat_lt
        rw [List.concat_eq_append, codeOf_snoc, codeOf_snoc] at h
        have hab : a = b := ih (by omega)
        have hxy : x = y := UInt8.toNat_inj.mp (by omega)
        rw [hab, hxy, List.concat_eq_append]

/-- A hash of decimal digits only. -/
def decimalHash (raw : ByteArray) : String := toString (codeOf raw.data.toList)

theorem decimalHash_toList (raw : ByteArray) :
    (decimalHash raw).toList = Nat.toDigits 10 (codeOf raw.data.toList) := by
  rw [decimalHash, ← Nat.toList_repr]
  rfl

theorem decimalHash_injective : Function.Injective decimalHash := by
  intro a b h
  have htext := congrArg String.toList h
  rw [decimalHash_toList, decimalHash_toList] at htext
  exact ByteArray.ext (Array.toList_inj.mp (codeOf_injective (toDigits_inj htext)))

def decimalStdlib : Stdlib where
  sha256 := decimalHash
  nfkc := id
  nfc := id
  casefold := id
  category _ := "Ll"
  jsonOther _ := .error .unicodeDecodeError
  errorText _ := ""
  repr
    | .int n => toString n
    | .float _ => "nan"
    | _ => ""
  schemaMessage _ _ _ := ""
  floatIsInteger _ := false
  floatCompare _ _ := none
  fnmatchcase name pattern := name == pattern

theorem floatTexts_nan {lib : Stdlib} (h : ∀ t, lib.repr (.float t) = "nan") : FloatTexts lib := by
  have htext : ∀ t, floatText lib t = ['N', 'a', 'N'] := by
    intro t
    rw [floatText, h t]
    rfl
  refine ⟨fun t => by simp [htext], fun t c hc => ?_, fun t n heq => ?_⟩
  · rw [htext] at hc
    simp only [List.mem_cons, List.not_mem_nil, or_false] at hc
    rcases hc with rfl | rfl | rfl <;> simp
  · rw [htext] at heq
    rcases int_text_chars n 'N' (heq ▸ List.mem_cons_self) with hc | hc
    · exact absurd hc (by decide)
    · exact absurd hc (by decide)

theorem chainAssumptions_decimal : ChainAssumptions decimalStdlib := by
  refine ⟨decimalHash_injective, fun raw c hc => .inl ?_, floatTexts_nan fun _ => rfl⟩
  change c ∈ (decimalHash raw).toList at hc
  rw [decimalHash_toList] at hc
  exact digits_isDigit _ c hc

/-- The call of the sample run, and the text its entry is hashed as. -/
def sampleCall : RecordCall := .violation "C1" "a.py" "s" "fail: 1"

def sampleTs : String := "2026-07-24T00:00:00+00:00"

def sampleHashed : ByteArray :=
  (String.ofList (genesisPrev.toList ++
    canonicalText decimalStdlib ((sampleCall.fields sampleTs).entry 0 genesisPrev))).toUTF8

def sampleDigest : String := "d9b36921a1405c30c3a2944b7c2a8f477905feb7ba27c24f2e3ce6c7cc60712b"

/-- The same, right on the text of the sample run. -/
def ledgerStdlib : Stdlib :=
  { decimalStdlib with
    sha256 := fun raw => if raw = sampleHashed then sampleDigest else decimalHash raw }

theorem chainAssumptions_ledger : ChainAssumptions ledgerStdlib := by
  have hdigits : ∀ raw, ∀ c ∈ (decimalHash raw).toList, c.isDigit := by
    intro raw c hc
    rw [decimalHash_toList] at hc
    exact digits_isDigit _ c hc
  have hletter : ∀ raw, sampleDigest ≠ decimalHash raw := by
    intro raw h
    have hd : 'd' ∈ sampleDigest.toList := by decide +kernel
    exact absurd (hdigits raw 'd' (h ▸ hd)) (by decide)
  refine ⟨?_, ?_, floatTexts_nan fun _ => rfl⟩
  · intro a b h
    simp only [ledgerStdlib] at h
    split_ifs at h with ha hb hb
    · rw [ha, hb]
    · exact absurd h (hletter b)
    · exact absurd h.symm (hletter a)
    · exact decimalHash_injective h
  · intro raw c hc
    simp only [ledgerStdlib] at hc
    split_ifs at hc
    · have hall : sampleDigest.toList.all fun c => c.isDigit || decide ('a' ≤ c ∧ c ≤ 'f') := by
        decide +kernel
      simpa using List.all_eq_true.mp hall c hc
    · exact .inl (hdigits raw c hc)

/-- One recorded violation verifies, and the ledger then holds its entry. -/
theorem override_ledger_integrity_sample : ∃ written,
    recordCall ledgerStdlib ⟨.missing, .missing⟩ sampleCall sampleTs "" = .ok written ∧
      (verifyOverrideLedger ledgerStdlib
        ⟨.text written.line, .text written.checkpoint⟩).valid = true := by
  cases hcall : recordCall ledgerStdlib ⟨.missing, .missing⟩ sampleCall sampleTs "" with
  | error reason =>
      obtain ⟨-, hnone, -⟩ := override_ledger_integrity chainAssumptions_ledger
        (@Run.nil _ _ (RecordStep ledgerStdlib) ⟨.missing, .missing⟩)
      obtain ⟨-, entries, hread, hlength, -, hrefused⟩ := hnone (by simp)
      rcases hrefused _ _ _ _ hcall with hblank | hdigits
      · exact absurd hblank (by decide +kernel)
      · rw [hlength] at hdigits
        exact absurd hdigits (by decide +kernel)
  | ok written =>
      refine ⟨written, rfl, ?_⟩
      have hrun := Run.single (RecordStep.done hcall)
      exact ((override_ledger_integrity chainAssumptions_ledger hrun).2.1 (by
        intro ev hev
        rw [List.mem_singleton.mp hev]
        rfl)).1

/-- A member `entry_hash` may be a number with the digits of the hash. -/
def spelledEntry (value : Json) : Entry :=
  [("entry_hash", value), ("prev_hash", .str genesisPrev)]

theorem spelledEntry_accepted {value : Json} {count : Nat}
    (hvalue : Flat value) (hstr : pyStr decimalStdlib value = toString count)
    (hcount : entryHash decimalStdlib genesisPrev [("prev_hash", .str genesisPrev)] =
      toString count) :
    readEntries (.text (ledgerText decimalStdlib [spelledEntry value])) =
        .ok [spelledEntry value] ∧
      (verifyOverrideLedger decimalStdlib ⟨.text (ledgerText decimalStdlib [spelledEntry value]),
        .text (checkpointText decimalStdlib "" 1 (toString count))⟩).valid = true := by
  have hline : LineEntry (spelledEntry value) := by
    refine ⟨by simp [spelledEntry], by simp [spelledEntry], ?_, by simp [sortByKey, spelledEntry]⟩
    intro m hm
    simp only [spelledEntry, List.mem_cons, List.not_mem_nil, or_false] at hm
    rcases hm with rfl | rfl
    · exact hvalue
    · exact .inl ⟨_, rfl⟩
  have hread := @readEntries_ledgerText decimalStdlib [spelledEntry value] (by simpa using hline)
  have hfield : strField decimalStdlib (spelledEntry value) "entry_hash" = toString count := hstr
  have hprev : strField decimalStdlib (spelledEntry value) "prev_hash" = genesisPrev := by
    simp [strField, spelledEntry, Dict.lookup_cons, pyStr]
  have hsans : sansHash (spelledEntry value) = [("prev_hash", .str genesisPrev)] := by
    simp [sansHash, spelledEntry]
  have hwalk : walkChain decimalStdlib genesisPrev 0 [spelledEntry value] =
      (toString count, none) := by
    rw [← List.nil_append [spelledEntry value], walkChain_snoc]
    refine ⟨genesisPrev, by rw [walkChain], hprev, ?_, hfield⟩
    rw [hsans, hcount, hfield]
  have hcheckpoint : readCheckpoint (.text (checkpointText decimalStdlib "" 1 (toString count))) =
      some [("entry_count", .int (1 : Nat)), ("head_hash", .str (toString count)),
        ("ledger_id", .str "")] := readCheckpoint_written (by decide)
  refine ⟨hread, ?_⟩
  refine (@verify_of decimalStdlib ⟨.text (ledgerText decimalStdlib [spelledEntry value]),
    .text (checkpointText decimalStdlib "" 1 (toString count))⟩ _ _ hread hwalk ?_).1
  simp only [hcheckpoint]
  exact ⟨rfl, rfl⟩

/-- The hash of the sample entry, as the number its digits show. -/
def spelledCount : Nat :=
  codeOf (String.ofList (genesisPrev.toList ++
    canonicalText decimalStdlib [("prev_hash", .str genesisPrev)])).toUTF8.data.toList

theorem spelledCount_short : (Nat.toDigits 10 spelledCount).length ≤ maxIntDigits := by
  rw [Nat.length_toDigits_le_iff (by decide) (by decide)]
  have hlen : (String.ofList (genesisPrev.toList ++ canonicalText decimalStdlib
      [("prev_hash", .str genesisPrev)])).toUTF8.data.toList.length = 144 := by decide +kernel
  have hlt := codeOf_lt (String.ofList (genesisPrev.toList ++
    canonicalText decimalStdlib [("prev_hash", .str genesisPrev)])).toUTF8.data.toList
  rw [hlen] at hlt
  refine lt_of_lt_of_le hlt ?_
  calc
    2 * 256 ^ 144 ≤ 256 ^ 145 := by decide +kernel
    _ ≤ (10 ^ 3) ^ 145 := Nat.pow_le_pow_left (by decide) 145
    _ = 10 ^ 435 := by rw [← pow_mul]
    _ ≤ 10 ^ maxIntDigits := Nat.pow_le_pow_right (by decide) (by decide)

theorem normal_spelledEntry (value : Json) : normal decimalStdlib (.obj (spelledEntry value)) =
    .obj [("entry_hash", normal decimalStdlib value), ("prev_hash", .str genesisPrev)] := by
  rw [normal, normalMembers_eq]
  simp [spelledEntry, sortByKey, normal]

/-- Two ledgers whose entries differ beyond formatting verify under one checkpoint: where the hash
has decimal digits only, its member may be a string or a number. -/
theorem hash_spelled_twice : ∃ lib, ChainAssumptions lib ∧ ∃ checkpoint ledger ledger' e e',
    (verifyOverrideLedger lib ⟨ledger, checkpoint⟩).valid = true ∧
      (verifyOverrideLedger lib ⟨ledger', checkpoint⟩).valid = true ∧
      readEntries ledger = .ok [e] ∧ readEntries ledger' = .ok [e'] ∧
      normal lib (.obj e) ≠ normal lib (.obj e') := by
  have hhash : entryHash decimalStdlib genesisPrev [("prev_hash", .str genesisPrev)] =
      toString spelledCount := rfl
  obtain ⟨hread, hvalid⟩ := @spelledEntry_accepted (.str (toString spelledCount)) spelledCount
    (.inl ⟨_, rfl⟩) rfl hhash
  obtain ⟨hread', hvalid'⟩ := @spelledEntry_accepted (.int spelledCount) spelledCount
    (.inr ⟨_, rfl, spelledCount_short⟩) rfl hhash
  refine ⟨decimalStdlib, chainAssumptions_decimal, _, _, _, _, _, hvalid, hvalid', hread, hread',
    ?_⟩
  rw [normal_spelledEntry, normal_spelledEntry]
  intro h
  have hvalue := congrArg Prod.snd (List.cons.inj (Json.obj.inj h)).1
  simp only [normal] at hvalue
  cases hvalue

end TrwMcp.Intent

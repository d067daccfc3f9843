import TrwMcp.Scheduling.Interrupted
import TrwMcp.Scoring.Receipts

/-!
# The early exit loses no receipt

The loop sees a line only through what it says: nothing, a receipt, or an exception. In
chronological order every receipt behind an old one is old, so the loop stops where nothing is left
to collect. Whether it gets that far depends on the rows that raise.
-/

namespace TrwMcp.Scoring

open Intent Lib Scheduling Text

/-- A receipt that counts: when it was written and what it recalled. -/
structure Receipt where
  time : Int
  ids : List Str

section

variable (lib : Library)

/-- What a text says: none where it is skipped. -/
def reads (text : List Char) : Option (Except Exc Receipt) :=
  if stripChars text = [] then none
  else
    match parseReceiptLine lib (stripChars text) with
    | .error e => some (.error e)
    | .ok none => none
    | .ok (some record) =>
        if hasOutcome record then none
        else
          match parseReceiptTimestamp lib record with
          | .error e => some (.error e)
          | .ok none => none
          | .ok (some time) => some (.ok ⟨time, extractRecalledIds record⟩)

/-- The text of a log of rows. -/
def logText (rows : List (List Char)) : List Char := rows.flatMap fun row => row ++ ['\n']

/-- The rows with a time are in the order of their times. -/
def Chronological (rows : List (List Char)) : Prop :=
  rows.Pairwise fun a b => ∀ r s, reads lib a = some (.ok r) → reads lib b = some (.ok s) →
    r.time ≤ s.time

/-- The lines of a row say together what the row says. -/
def LinesRead (row : List Char) : Prop :=
  (linesOf (row ++ ['\n'])).filterMap (reads lib) = (reads lib row).toList

def Raises (row : List Char) : Prop := ∃ e, reads lib row = some (.error e)

variable (cutoff now : Int)

/-- A receipt from before the cutoff. -/
def isOld : Except Exc Receipt → Bool
  | .ok r => decide (r.time < cutoff)
  | .error _ => false

def isOldRow (row : List Char) : Bool := ((reads lib row).map (isOld cutoff)).getD false

/-- The ids of a receipt between the cutoff and now. -/
def idsOf : Except Exc Receipt → List Str
  | .ok r => if cutoff ≤ r.time ∧ r.time ≤ now then r.ids else []
  | .error _ => []

/-- The ids a full scan of the rows collects, those of the newest row first. -/
def recalledIds (rows : List (List Char)) : List Str :=
  rows.reverse.flatMap fun row => ((reads lib row).map (idsOf cutoff now)).getD []

/-- The loop over what the lines say. -/
@[grind =] def drain : List (Except Exc Receipt) → Nat → List Str → Except Exc (List Str)
  | [], _, results => .ok results
  | .error e :: _, _, _ => .error e
  | .ok r :: rest, old, results =>
      if r.time < cutoff then
        if consecutiveOldEarlyExit ≤ old + 1 then .ok results else drain rest (old + 1) results
      else drain rest 0 (results ++ idsOf cutoff now (.ok r))

/-- Enough old receipts stand before every exception to stop the loop there. -/
def Shielded (old : Nat) (l : List (Except Exc Receipt)) : Prop :=
  ∀ front e back, l = front ++ .error e :: back →
    consecutiveOldEarlyExit ≤ old + front.countP (isOld cutoff)

end

section

variable {lib : Library} {cutoff now : Int} {old : Nat} {results : List Str}
  {l : List (Except Exc Receipt)} {rows : List (List Char)}

theorem scanReceipts_eq (lines : List (List Char)) (old : Nat) (results : List Str) :
    scanReceipts lib cutoff now lines old results =
      drain cutoff now (lines.filterMap (reads lib)) old results := by
  induction lines generalizing old results with
  | nil => rfl
  | cons line rest ih =>
      rw [scanReceipts, List.filterMap_cons, reads]
      split
      · exact ih ..
      · cases parseReceiptLine lib (stripChars line) with
        | error e => rfl
        | ok parsed =>
            cases parsed with
            | none => exact ih ..
            | some record =>
                dsimp only
                split
                · exact ih ..
                · cases parseReceiptTimestamp lib record with
                  | error e => rfl
                  | ok stamp =>
                      cases stamp with
                      | none => exact ih ..
                      | some time =>
                          dsimp only
                          rw [drain, idsOf, ih, ih, ih]
                          dsimp only
                          by_cases hold : time < cutoff
                          · rw [if_pos hold, if_pos hold]
                          · rw [if_neg hold, if_neg hold]
                            by_cases hfuture : now - time < 0
                            · rw [if_pos hfuture, if_neg (by omega), List.append_nil]
                            · rw [if_neg hfuture, if_pos (by omega)]

theorem shielded_ok (r : Receipt) :
    Shielded cutoff old (.ok r :: l) ↔
      Shielded cutoff (old + if r.time < cutoff then 1 else 0) l := by
  have hcount (front : List (Except Exc Receipt)) :
      (Except.ok r :: front).countP (isOld cutoff) =
        front.countP (isOld cutoff) + if r.time < cutoff then 1 else 0 := by
    rw [List.countP_cons, isOld]
    simp only [decide_eq_true_eq]
  constructor
  · intro h front e back hl
    have hbound := h (.ok r :: front) e back (by rw [hl, List.cons_append])
    rw [hcount] at hbound
    omega
  · intro h front e back hl
    rcases front with - | ⟨a, front⟩
    · cases (List.cons.inj hl).1
    · obtain ⟨rfl, hrest⟩ := List.cons.inj hl
      have hbound := h front e back hrest
      rw [hcount]
      omega

theorem flatMap_idsOf_old (h : ∀ r, .ok r ∈ l → r.time < cutoff) :
    l.flatMap (idsOf cutoff now) = [] := by
  refine List.flatMap_eq_nil_iff.mpr fun a ha => ?_
  cases a with
  | error e => rfl
  | ok r => exact if_neg fun hin => absurd (h r ha) (by omega)

theorem drain_iff
    (horder : l.Pairwise fun a b => ∀ r s, a = .ok r → b = .ok s → s.time ≤ r.time)
    (hold : old < consecutiveOldEarlyExit) (hrun : old = 0 ∨ ∀ r, .ok r ∈ l → r.time < cutoff) :
    drain cutoff now l old results = .ok (results ++ l.flatMap (idsOf cutoff now)) ↔
      Shielded cutoff old l := by
  induction l generalizing old results with
  | nil => simp [drain, Shielded]
  | cons a rest ih =>
      obtain ⟨hfirst, hrest⟩ := List.pairwise_cons.mp horder
      cases a with
      | error e =>
          refine iff_of_false (by simp [drain]) fun h => ?_
          have hbound := h [] e rest rfl
          simp only [List.countP_nil] at hbound
          omega
      | ok r =>
          rw [drain, shielded_ok, List.flatMap_cons]
          by_cases htime : r.time < cutoff
          · -- every receipt behind this one is old
            have hall : ∀ s, .ok s ∈ rest → s.time < cutoff := fun s hs =>
              (hfirst _ hs r s rfl rfl).trans_lt htime
            have hnothing : idsOf cutoff now (.ok r) = [] := if_neg (by omega)
            rw [if_pos htime, if_pos htime, hnothing, List.nil_append]
            split
            · next hexit =>
              refine iff_of_true (by rw [flatMap_idsOf_old hall, List.append_nil]) ?_
              exact fun front e back _ => hexit.trans (Nat.le_add_right ..)
            · exact ih hrest (by omega) (.inr hall)
          · have hzero : old = 0 := hrun.resolve_right fun h => htime (h r List.mem_cons_self)
            rw [if_neg htime, if_neg htime, ← List.append_assoc, hzero]
            exact ih hrest (by decide) (.inl rfl)

/-! ## Rows and lines -/

theorem linesOf_unbroken {row : List Char} (h : ∀ c ∈ row, isLineBreak c = false) :
    linesOf (row ++ ['\n']) = [row] := by
  have hsplit : splitLines (row ++ ['\n']) = (row, []) := by
    induction row with
    | nil => rfl
    | cons c cs ih =>
        have hc := h c List.mem_cons_self
        have hreturn : c ≠ '\r' := by
          rintro rfl
          cases hc
        rw [List.cons_append, splitLines_char fun _ heq _ => hreturn heq, hc,
          ih fun d hd => h d (List.mem_cons_of_mem _ hd)]
        rfl
  rw [linesOf_ne (by simp), hsplit]

theorem linesRead_unbroken {row : List Char} (h : ∀ c ∈ row, isLineBreak c = false) :
    LinesRead lib row := by
  rw [LinesRead, linesOf_unbroken h]
  cases hreads : reads lib row <;> simp [hreads]

theorem reads_logText (h : ∀ row ∈ rows, LinesRead lib row) :
    (linesOf (logText rows)).filterMap (reads lib) = rows.filterMap (reads lib) := by
  induction rows with
  | nil => rfl
  | cons row rows ih =>
      rw [logText, List.flatMap_cons, linesOf_append (.inr (by simp)), List.filterMap_append,
        h row List.mem_cons_self]
      have hrest := ih fun r hr => h r (List.mem_cons_of_mem _ hr)
      rw [logText] at hrest
      rw [hrest, List.filterMap_cons]
      cases reads lib row <;> rfl

theorem countP_reads (rows : List (List Char)) :
    (rows.filterMap (reads lib)).countP (isOld cutoff) = rows.countP (isOldRow lib cutoff) :=
  List.countP_filterMap ..

theorem shielded_rows :
    Shielded cutoff 0 (rows.reverse.filterMap (reads lib)) ↔
      ∀ older row newer, rows = older ++ row :: newer → Raises lib row →
        consecutiveOldEarlyExit ≤ newer.countP (isOldRow lib cutoff) := by
  constructor
  · rintro h older row newer rfl ⟨e, hraises⟩
    have hbound := h (newer.reverse.filterMap (reads lib)) e (older.reverse.filterMap (reads lib))
      (by simp [hraises])
    rwa [countP_reads, List.countP_reverse, Nat.zero_add] at hbound
  · intro h front e back hl
    obtain ⟨newest, others, hrows, hfront, hback⟩ := List.filterMap_eq_append_iff.mp hl
    obtain ⟨skipped, row, older, rfl, hskipped, hraises, -⟩ := List.filterMap_eq_cons_iff.mp hback
    have hsplit : rows = older.reverse ++ row :: (newest ++ skipped).reverse := by
      rw [← List.reverse_reverse rows, hrows]
      simp
    have hbound := h _ row _ hsplit ⟨e, hraises⟩
    have hnone : skipped.filterMap (reads lib) = [] := List.filterMap_eq_nil_iff.mpr hskipped
    rwa [List.countP_reverse, ← countP_reads, List.filterMap_append, hnone, List.append_nil, hfront,
      ← Nat.zero_add (List.countP ..)] at hbound

theorem flatMap_reads (rows : List (List Char)) :
    (rows.reverse.filterMap (reads lib)).flatMap (idsOf cutoff now) =
      recalledIds lib cutoff now rows := by
  rw [recalledIds]
  induction rows.reverse with
  | nil => rfl
  | cons row rest ih =>
      rw [List.filterMap_cons, List.flatMap_cons, ← ih]
      cases reads lib row <;> simp

end

/-- In a chronological log whose rows are read as they stand, the correlation returns what a full
scan returns if and only if fifty old receipts follow every row that raises. -/
theorem correlateRecalls_iff (lib : Library) (c : Correlation) (rows : List (List Char))
    (hchronological : Chronological lib rows) (hread : ∀ row ∈ rows, LinesRead lib row) :
    correlateRecalls lib c (.text (logText rows)) = .ok (recalledIds lib c.cutoff c.now rows) ↔
      ∀ older row newer, rows = older ++ row :: newer → Raises lib row →
        consecutiveOldEarlyExit ≤ newer.countP (isOldRow lib c.cutoff) := by
  have horder : (rows.reverse.filterMap (reads lib)).Pairwise fun a b =>
      ∀ r s, a = .ok r → b = .ok s → s.time ≤ r.time := by
    rw [List.pairwise_filterMap, List.pairwise_reverse]
    refine hchronological.imp fun h a ha b hb r s hr hs => ?_
    exact h s r (by rw [← hs]; exact hb) (by rw [← hr]; exact ha)
  rw [correlateRecalls, scanReceipts_eq, List.filterMap_reverse, reads_logText hread,
    ← List.filterMap_reverse, ← shielded_rows, ← flatMap_reads, ← drain_iff horder (by decide)
      (.inl rfl), List.nil_append]

/-! A receipt, a row of the same clock whose query holds a line separator, and a row whose epoch is
out of range. -/

def receiptRow : List Char :=
  "\x7b\"ts\": \"2026-01-01T00:00:00Z\", \"learning_id\": \"L1\"\x7d".toList

def brokenRow : List Char :=
  "\x7b\"ts\": \"2026-01-01T00:00:00Z\", \"learning_id\": \"L2\", \"query\": \"a\u2028b\"\x7d".toList

def infiniteRow : List Char := "\x7b\"timestamp\": Infinity\x7d".toList

/-- `json.loads` and the clocks on the rows. -/
def sampleLibrary : Library where
  loads line :=
    if line = receiptRow then
      .ok (.dict [(str "ts", .str (str "2026-01-01T00:00:00Z")),
        (str "learning_id", .str (str "L1"))])
    else if line = brokenRow then
      .ok (.dict [(str "ts", .str (str "2026-01-01T00:00:00Z")),
        (str "learning_id", .str (str "L2")), (str "query", .str (str "a\u2028b"))])
    else if line = infiniteRow then .ok (.dict [(str "timestamp", .scalar (str "inf"))])
    else .error .valueError
  isoTime text :=
    if text = str "2026-01-01T00:00:00+00:00" then .ok 1767225600000000 else .error .valueError
  epochTime text := if text = str "inf" then .error .overflowError else .error .valueError
  strOf _ := []

/-- A window of half an hour, ten minutes after the receipt. -/
def sampleCorrelation : Correlation where
  now := 1767226200000000
  windowMinutes := 30
  scope := "window"
  sessionStart := none

theorem receiptRow_reads :
    reads sampleLibrary receiptRow = some (.ok ⟨1767225600000000, [str "L1"]⟩) := by rfl

theorem receiptRow_unbroken : ∀ c ∈ receiptRow, isLineBreak c = false := by
  have hall : (receiptRow.all fun c => !isLineBreak c) = true := by rfl
  simpa using hall

theorem correlateRecalls_iff_sample :
    correlateRecalls sampleLibrary sampleCorrelation (.text (logText [receiptRow])) =
      .ok [str "L1"] := by
  refine (correlateRecalls_iff sampleLibrary sampleCorrelation [receiptRow]
    (List.pairwise_singleton ..) ?_).mpr ?_
  · intro row hrow
    obtain rfl := List.mem_singleton.mp hrow
    exact linesRead_unbroken receiptRow_unbroken
  · rintro older row newer hrows ⟨e, hraises⟩
    have hrow : row ∈ [receiptRow] := by
      rw [hrows]
      simp
    obtain rfl := List.mem_singleton.mp hrow
    rw [receiptRow_reads] at hraises
    cases hraises

set_option maxRecDepth 8000 in
/-- A row with an infinite epoch takes the receipts of every row; a line separator takes those of
its own row. -/
theorem rows_lost :
    (correlateRecalls sampleLibrary sampleCorrelation (.text (logText [receiptRow, infiniteRow])) =
        .error .overflowError ∧
      recalledIds sampleLibrary sampleCorrelation.cutoff sampleCorrelation.now
        [receiptRow, infiniteRow] = [str "L1"]) ∧
    correlateRecalls sampleLibrary sampleCorrelation (.text (logText [brokenRow])) = .ok [] ∧
      recalledIds sampleLibrary sampleCorrelation.cutoff sampleCorrelation.now [brokenRow] =
        [str "L2"] := by
  refine ⟨⟨?_, ?_⟩, ?_, ?_⟩ <;> rfl

end TrwMcp.Scoring

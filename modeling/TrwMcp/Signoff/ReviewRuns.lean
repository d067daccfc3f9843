import TrwMcp.Signoff.Review

/-!
# An approval is one that was minted

A row whose signature checks has the payload of a minted record, so it is that record as far as the
payload reads in one way only. It does where neither the review nor the approver has a bar.
-/

namespace TrwMcp.Signoff

open Lib State

section

variable {lib : Stdlib}

/-! ## Reading a payload -/

/-- Read as any record with timestamps, the payload is for the same approval of the same review in
the same window. -/
def OneReading (lib : Stdlib) (m : ReviewSignoff) : Prop :=
  ∀ r : ReviewSignoff, r.payload = m.payload → ∀ approved expires,
    lib.parseIso r.approvedAt = some approved → lib.parseIso r.expiresAt = some expires →
      r.approvalId = m.approvalId ∧ r.reviewRef = m.reviewRef ∧
        lib.parseIso m.approvedAt = some approved ∧ lib.parseIso m.expiresAt = some expires

theorem append_sep_inj {sep : Char} {xs ys xs' ys' : List Char}
    (h : xs ++ sep :: xs' = ys ++ sep :: ys') (hxs : sep ∉ xs) (hys : sep ∉ ys) :
    xs = ys ∧ xs' = ys' := by
  induction xs generalizing ys with
  | nil =>
      cases ys with
      | nil => exact ⟨rfl, List.cons.inj h |>.2⟩
      | cons y ys =>
          obtain ⟨rfl, -⟩ := List.cons.inj h
          exact absurd List.mem_cons_self hys
  | cons x xs ih =>
      cases ys with
      | nil =>
          obtain ⟨rfl, -⟩ := List.cons.inj h
          exact absurd List.mem_cons_self hxs
      | cons y ys =>
          obtain ⟨rfl, hrest⟩ := List.cons.inj h
          obtain ⟨rfl, hrest'⟩ := ih hrest (fun hmem => hxs (List.mem_cons_of_mem _ hmem))
            (fun hmem => hys (List.mem_cons_of_mem _ hmem))
          exact ⟨rfl, hrest'⟩

/-- No field has a bar. -/
structure Barless (r : ReviewSignoff) : Prop where
  approvalId : '|' ∉ r.approvalId.toList
  reviewRef : '|' ∉ r.reviewRef.toList
  approver : '|' ∉ r.approver.toList
  approvedAt : '|' ∉ r.approvedAt.toList
  expiresAt : '|' ∉ r.expiresAt.toList

/-- The labels between the bars. -/
def labels : List (List Char) :=
  ["v1".toList, "approval_id=".toList, "review_ref=".toList, "approver=".toList,
    "approved_at=".toList, "expires_at=".toList]

theorem bar_not_mem_labels : ∀ label ∈ labels, '|' ∉ label := by
  decide

theorem count_labels {label : List Char} (h : label ∈ labels) : label.count '|' = 0 :=
  List.count_eq_zero_of_not_mem (bar_not_mem_labels label h)

theorem count_payload (r : ReviewSignoff) :
    r.payload.count '|' = 5 + r.approvalId.toList.count '|' + r.reviewRef.toList.count '|' +
      r.approver.toList.count '|' + r.approvedAt.toList.count '|' +
        r.expiresAt.toList.count '|' := by
  have h0 : "v1".toList.count '|' = 0 := count_labels (by simp [labels])
  have h1 : "approval_id=".toList.count '|' = 0 := count_labels (by simp [labels])
  have h2 : "review_ref=".toList.count '|' = 0 := count_labels (by simp [labels])
  have h3 : "approver=".toList.count '|' = 0 := count_labels (by simp [labels])
  have h4 : "approved_at=".toList.count '|' = 0 := count_labels (by simp [labels])
  have h5 : "expires_at=".toList.count '|' = 0 := count_labels (by simp [labels])
  simp only [ReviewSignoff.payload, canonicalPayload, List.count_append, List.count_cons_self, h0,
    h1, h2, h3, h4, h5]
  omega

theorem Barless.reading {r m : ReviewSignoff} (hm : Barless m) (h : r.payload = m.payload) :
    r.approvalId = m.approvalId ∧ r.reviewRef = m.reviewRef ∧ r.approver = m.approver ∧
      r.approvedAt = m.approvedAt ∧ r.expiresAt = m.expiresAt := by
  have hcount := congrArg (List.count '|') h
  rw [count_payload, count_payload] at hcount
  simp only [List.count_eq_zero_of_not_mem hm.approvalId,
    List.count_eq_zero_of_not_mem hm.reviewRef, List.count_eq_zero_of_not_mem hm.approver,
    List.count_eq_zero_of_not_mem hm.approvedAt, List.count_eq_zero_of_not_mem hm.expiresAt]
    at hcount
  have hbar : ∀ {text : String}, text.toList.count '|' = 0 → '|' ∉ text.toList :=
    fun h0 => List.count_eq_zero.mp h0
  have hlabel : ∀ {label : List Char} {text : String}, label ∈ labels → '|' ∉ text.toList →
      '|' ∉ label ++ text.toList := fun hl ht hmem =>
    (List.mem_append.mp hmem).elim (bar_not_mem_labels _ hl) ht
  have hversion : '|' ∉ "v1".toList := bar_not_mem_labels _ (by simp [labels])
  obtain ⟨-, h⟩ := append_sep_inj h hversion hversion
  obtain ⟨hid, h⟩ := append_sep_inj h (hlabel (by simp [labels]) (hbar (by omega)))
    (hlabel (by simp [labels]) hm.approvalId)
  obtain ⟨href, h⟩ := append_sep_inj h (hlabel (by simp [labels]) (hbar (by omega)))
    (hlabel (by simp [labels]) hm.reviewRef)
  obtain ⟨hname, h⟩ := append_sep_inj h (hlabel (by simp [labels]) (hbar (by omega)))
    (hlabel (by simp [labels]) hm.approver)
  obtain ⟨happroved, hexpires⟩ := append_sep_inj h (hlabel (by simp [labels]) (hbar (by omega)))
    (hlabel (by simp [labels]) hm.approvedAt)
  have htext : ∀ {label : List Char} {s t : String}, label ++ s.toList = label ++ t.toList →
      s = t := fun heq => String.toList_inj.mp (List.append_cancel_left heq)
  exact ⟨htext hid, htext href, htext hname, htext happroved, htext hexpires⟩

theorem Barless.oneReading {m : ReviewSignoff} (hm : Barless m) : OneReading lib m := by
  intro r hpayload approved expires happroved hexpires
  obtain ⟨hid, href, -, happroved', hexpires'⟩ := hm.reading hpayload
  exact ⟨hid, href, happroved' ▸ happroved, hexpires' ▸ hexpires⟩

/-! ## Minting -/

theorem mintSignoff_some {cap : Int} {args : AppendArgs} {token : String} {record : ReviewSignoff}
    (h : mintSignoff lib cap args token = some record) :
    record.reviewRef = strip args.reviewRef ∧ record.reviewRef ≠ "" ∧
      record.approver = strip args.approver ∧ record.approvalId = "opsign-" ++ token ∧
        Signed lib record := by
  unfold mintSignoff at h
  simp only at h
  split at h
  · cases h
  · next href =>
      split at h
      · cases h
      · split at h
        · cases h
        · split at h
          · cases h
          · obtain rfl := Option.some.inj h
            exact ⟨rfl, href, rfl, rfl, rfl⟩

theorem opsign_ne_empty (token : String) : "opsign-" ++ token ≠ "" := by
  intro h
  have := congrArg String.toList h
  simp at this

/-! ## Resolving -/

/-- What a record says that holds. -/
structure Holds (lib : Stdlib) (r : ReviewSignoff) (reviewRefs : List String)
    (moment maxHours approved expires : Int) : Prop where
  ref : r.reviewRef ∈ reviewRefs
  issued : lib.parseIso r.approvedAt = some approved
  ends : lib.parseIso r.expiresAt = some expires
  window : expires - approved ≤ maxHours * hour
  alive : moment ≤ expires

theorem check_holds {r : ReviewSignoff} {reviewRefs : List String} {moment maxHours : Int} :
    check lib r reviewRefs moment maxHours = .holds ↔
      isAscii r.signature = true ∧ Signed lib r ∧ r.reviewRef ≠ "" ∧
        ∃ approved expires, Holds lib r reviewRefs moment maxHours approved expires := by
  unfold check
  simp only
  constructor
  · intro h
    split at h
    · cases h
    · next hascii =>
        split at h
        · cases h
        · next hsigned =>
            split at h
            · cases h
            · next href =>
                have href' := List.mem_filter.mp (not_not.mp href)
                cases happroved : lib.parseIso r.approvedAt with
                | none => simp [happroved] at h
                | some approved =>
                    cases hexpires : lib.parseIso r.expiresAt with
                    | none => simp [happroved, hexpires] at h
                    | some expires =>
                        simp only [happroved, hexpires] at h
                        split at h
                        · cases h
                        · next hwindow =>
                            split at h
                            · cases h
                            · next halive =>
                                exact ⟨by simpa using hascii, not_not.mp hsigned,
                                  by simpa using href'.2, approved, expires, href'.1, happroved,
                                  hexpires, not_lt.mp hwindow, not_lt.mp halive⟩
  · rintro ⟨hascii, hsigned, hne, approved, expires, href, happroved, hexpires, hwindow, halive⟩
    have hmem : r.reviewRef ∈ reviewRefs.filter (· ≠ "") :=
      List.mem_filter.mpr ⟨href, by simpa using hne⟩
    have hsigned' : signReviewSignoff lib r.approvalId r.reviewRef r.approver r.approvedAt
        r.expiresAt = r.signature := hsigned
    simp only [hascii, Bool.not_true, Bool.false_eq_true, if_false, hsigned', ne_eq,
      not_true_eq_false, hmem, not_lt.mpr hwindow, not_lt.mpr halive, happroved, hexpires]

theorem check_typeError {r : ReviewSignoff} {reviewRefs : List String} {moment maxHours : Int}
    (h : isAscii r.signature = true) : check lib r reviewRefs moment maxHours ≠ .typeError := by
  unfold check
  simp only [h, Bool.not_true, Bool.false_eq_true, if_false]
  intro htype
  repeat' split at htype
  all_goals cases htype

theorem resolveMatches_verified {reviewRefs : List String} {moment maxHours : Int}
    {records : List ReviewSignoff} {lastReason : Reason}
    (hascii : ∀ r ∈ records, isAscii r.signature = true) :
    (∃ approver,
        resolveMatches lib reviewRefs moment maxHours records lastReason = .verified approver) ↔
      ∃ r ∈ records, check lib r reviewRefs moment maxHours = .holds := by
  induction records generalizing lastReason with
  | nil => simp [resolveMatches]
  | cons record records ih =>
      rw [resolveMatches]
      cases hcheck : check lib record reviewRefs moment maxHours with
      | holds => simp [hcheck]
      | refused reason =>
          simp only [List.mem_cons, exists_eq_or_imp, hcheck, reduceCtorEq, false_or]
          exact ih fun r hr => hascii r (List.mem_cons_of_mem _ hr)
      | typeError => exact absurd hcheck (check_typeError (hascii record List.mem_cons_self))

/-! ## Runs -/

structure Inv (lib : Stdlib) (w : World) : Prop where
  rows : ∀ r ∈ w.file.readable, Signed lib r → ∃ m ∈ w.returned, m.signature = r.signature
  ascii : ∀ r ∈ w.file.readable, isAscii r.signature = true
  kept : ∀ m ∈ w.returned, m ∈ w.file.readable
  minted : ∀ m ∈ w.returned, Signed lib m ∧ OneReading lib m ∧ m.reviewRef ≠ "" ∧ m.approvalId ≠ ""

theorem Inv.fresh : Inv lib {} where
  rows r h := absurd h (by simp [JsonlFile.readable, JsonlFile.seen, loadsLine])
  ascii r h := absurd h (by simp [JsonlFile.readable, JsonlFile.seen, loadsLine])
  kept := by simp
  minted := by simp

/-- The condition on one step. An append returns if and only if its whole line is written, it
starts on a fresh line, and what it signs reads in one way; a journal that is tampered with keeps
the lines that were minted, and every signature in it is ASCII. -/
def Regular (lib : Stdlib) (w : World) : Deed → Prop
  | .append args cap token written returns =>
      (returns = true → written = .line) ∧ (written.lands = true → returns = true) ∧
        (written ≠ .nothing → w.file.tail = []) ∧
          ∀ record, returns = true → mintSignoff lib cap args token = some record →
            OneReading lib record
  | .tamper file =>
      (∀ m ∈ w.returned, m ∈ file.readable) ∧ ∀ r ∈ file.readable, isAscii r.signature = true

theorem Inv.append (hlib : lib.Lawful) {w : World} (h : Inv lib w) {args : AppendArgs} {cap : Int}
    {token : String} {written : Written} {returns : Bool} {record : ReviewSignoff}
    (hregular : Regular lib w (.append args cap token written returns))
    (hmint : mintSignoff lib cap args token = some record) :
    Inv lib
      { file := w.file.append record written
        returned := if returns then w.returned ++ [record] else w.returned } := by
  obtain ⟨hline, hreturns, htail, hreading⟩ := hregular
  obtain ⟨-, href, -, hid, hsigned⟩ := mintSignoff_some hmint
  have hold : ∀ m ∈ w.returned, m ∈ if returns then w.returned ++ [record] else w.returned := by
    intro m hm
    split
    · exact List.mem_append_left _ hm
    · exact hm
  have hkept : ∀ r ∈ w.file.readable, r ∈ (w.file.append record written).readable := by
    intro r hr
    by_cases hnothing : written = .nothing
    · rw [hnothing]
      exact hr
    · rw [readable_append (htail hnothing)]
      exact List.mem_append_left _ hr
  have hnew : ∀ m ∈ (if returns then w.returned ++ [record] else w.returned),
      m ∈ w.returned ∨ (m = record ∧ returns = true) := by
    intro m hm
    split at hm
    · next hret =>
        rcases List.mem_append.mp hm with hm | hm
        · exact .inl hm
        · exact .inr ⟨List.mem_singleton.mp hm, hret⟩
    · exact .inl hm
  constructor
  · intro r hr hrsigned
    rcases mem_readable_append hr with hr | ⟨rfl, hlands⟩
    · obtain ⟨m, hm, hsame⟩ := h.rows r hr hrsigned
      exact ⟨m, hold m hm, hsame⟩
    · exact ⟨r, by simp [hreturns hlands], rfl⟩
  · intro r hr
    rcases mem_readable_append hr with hr | ⟨rfl, -⟩
    · exact h.ascii r hr
    · rw [← hsigned]
      exact hlib.ascii _
  · intro m hm
    rcases hnew m hm with hm | ⟨rfl, hret⟩
    · exact hkept m (h.kept m hm)
    · have hwritten := hline hret
      rw [readable_append (htail (by simp [hwritten])), hwritten]
      exact List.mem_append_right _ (List.mem_singleton.mpr rfl)
  · intro m hm
    rcases hnew m hm with hm | ⟨rfl, hret⟩
    · exact h.minted m hm
    · exact ⟨hsigned, hreading m hret hmint, href, hid ▸ opsign_ne_empty token⟩

theorem Inv.step (hlib : lib.Lawful) {w w' : World} {deed : Deed} (h : Inv lib w)
    (hregular : Regular lib w deed) (hstep : Step lib w deed w') : Inv lib w' := by
  cases hstep with
  | appended hmint => exact h.append hlib hregular hmint
  | rejected _ => exact h
  | tampered hrows => exact ⟨hrows, hregular.2, hregular.1, h.minted⟩

/-- What is asked of every state whose journal can be read. -/
def VerifiesMinted (lib : Stdlib) (w : World) : Prop :=
  ∀ approvalId reviewRefs moment maxHours, lib.journalBytes w.file ≤ maxSignoffFileBytes →
    ((∃ approver, resolveReviewSignoff lib w.file approvalId reviewRefs moment (some maxHours) =
        .verified approver) ↔
      ∃ m ∈ w.returned, m.approvalId = strip approvalId ∧
        ∃ approved expires, Holds lib m reviewRefs moment maxHours approved expires)

theorem Inv.genuine (hlib : lib.Lawful) {w : World} (h : Inv lib w) {r : ReviewSignoff}
    (hr : r ∈ w.file.readable) (hsigned : Signed lib r) {reviewRefs : List String}
    {moment maxHours approved expires : Int}
    (hholds : Holds lib r reviewRefs moment maxHours approved expires) :
    ∃ m ∈ w.returned, m.approvalId = r.approvalId ∧
      Holds lib m reviewRefs moment maxHours approved expires := by
  obtain ⟨m, hm, hsame⟩ := h.rows r hr hsigned
  obtain ⟨hmsigned, hreading, -, -⟩ := h.minted m hm
  have hpayload : r.payload = m.payload := by
    apply hlib.hmac
    rw [show lib.hmac r.payload = r.signature from hsigned,
      show lib.hmac m.payload = m.signature from hmsigned, hsame]
  obtain ⟨hid, href, happroved, hexpires⟩ :=
    hreading r hpayload approved expires hholds.issued hholds.ends
  exact ⟨m, hm, hid.symm, href ▸ hholds.ref, happroved, hexpires, hholds.window, hholds.alive⟩

theorem Inv.verifies (hlib : lib.Lawful) {w : World} (h : Inv lib w) : VerifiesMinted lib w := by
  intro approvalId reviewRefs moment maxHours hsize
  unfold resolveReviewSignoff
  simp only [not_lt.mpr hsize, if_false]
  by_cases htoken : strip approvalId = ""
  · simp only [htoken, if_true]
    constructor
    · rintro ⟨approver, hverified⟩
      cases hverified
    · rintro ⟨m, hm, hid, -⟩
      exact absurd hid (h.minted m hm).2.2.2
  · rw [if_neg htoken, resolveMatches_verified fun r hr => h.ascii r (List.mem_filter.mp hr).1]
    constructor
    · rintro ⟨r, hr, hcheck⟩
      obtain ⟨hr, hid⟩ := List.mem_filter.mp hr
      obtain ⟨-, hsigned, -, approved, expires, hholds⟩ := check_holds.mp hcheck
      obtain ⟨m, hm, hmid, hmholds⟩ := h.genuine hlib hr hsigned hholds
      exact ⟨m, hm, hmid.trans (by simpa using hid), approved, expires, hmholds⟩
    · rintro ⟨m, hm, hid, approved, expires, hholds⟩
      obtain ⟨hsigned, -, href, -⟩ := h.minted m hm
      exact ⟨m, List.mem_filter.mpr ⟨h.kept m hm, by simpa using hid⟩,
        check_holds.mpr ⟨h.ascii m (h.kept m hm), hsigned, href, approved, expires, hholds⟩⟩

/-- One step that meets the condition. -/
def RegularStep (lib : Stdlib) (w : World) (deed : Deed) (w' : World) : Prop :=
  Step lib w deed w' ∧ Regular lib w deed

end

/-! ### Two reviews, one payload -/

/-- Each character by its number, in strokes. -/
def strokes (payload : List Char) : List Char :=
  payload.flatMap fun c => List.replicate c.toNat '1' ++ ['0']

/-- A signature that spells its payload, and timestamps that count. -/
def plainLib : Stdlib where
  hmac payload := String.ofList (strokes payload)
  isoformat t := String.ofList ((if t < 0 then '-' else '+') :: List.replicate t.natAbs '1')
  parseIso text :=
    match text.toList with
    | '+' :: rest => some rest.length
    | '-' :: rest => some (-rest.length)
    | _ => none
  journalBytes _ := 0

theorem strokes_injective : Function.Injective strokes := by
  intro xs
  induction xs with
  | nil =>
      intro ys h
      cases ys with
      | nil => rfl
      | cons y ys => simp [strokes] at h
  | cons x xs ih =>
      intro ys h
      cases ys with
      | nil => simp [strokes] at h
      | cons y ys =>
          have hsep : ∀ n : Nat, '0' ∉ List.replicate n '1' := by simp
          have h' : List.replicate x.toNat '1' ++ '0' :: strokes xs =
              List.replicate y.toNat '1' ++ '0' :: strokes ys := by simpa [strokes] using h
          obtain ⟨hhead, hrest⟩ := append_sep_inj h' (hsep _) (hsep _)
          have hnum : x.toNat = y.toNat := by simpa using congrArg List.length hhead
          rw [Char.toNat_inj.mp hnum, ih hrest]

theorem plainLib_lawful : plainLib.Lawful where
  hmac xs ys h := strokes_injective (String.ofList_injective h)
  ascii payload := by
    simp only [plainLib, isAscii, String.toList_ofList, List.all_eq_true, strokes,
      List.mem_flatMap, List.mem_append, List.mem_replicate, List.mem_singleton]
    rintro c ⟨d, -, ⟨-, rfl⟩ | rfl⟩
    · decide
    · decide
  iso t := by
    by_cases ht : t < 0
    · simp only [plainLib, ht, if_true, String.toList_ofList, List.length_replicate]
      congr 1
      omega
    · simp only [plainLib, ht, if_false, String.toList_ofList, List.length_replicate]
      congr 1
      omega

def sampleArgs (ref name : String) : AppendArgs := { reviewRef := ref, approver := name, now := 0 }

def sampleRecord (ref name : String) : ReviewSignoff where
  approvalId := "opsign-" ++ "00"
  reviewRef := ref
  approver := name
  approvedAt := plainLib.isoformat 0
  expiresAt := plainLib.isoformat (0 + 24 * hour)
  signature := signReviewSignoff plainLib ("opsign-" ++ "00") ref name (plainLib.isoformat 0)
    (plainLib.isoformat (0 + 24 * hour))

theorem sample_mint {ref name : String} (href : strip ref = ref) (hname : strip name = name)
    (href' : ref ≠ "") (hname' : name ≠ "") :
    mintSignoff plainLib 24 (sampleArgs ref name) "00" = some (sampleRecord ref name) := by
  simp [mintSignoff, sampleArgs, href, hname, href', hname', sampleRecord]

def mintedWorld (ref name : String) : World where
  file := ({} : JsonlFile ReviewSignoff).append (sampleRecord ref name) .line
  returned := [sampleRecord ref name]

theorem minted_step {ref name : String} (href : strip ref = ref) (hname : strip name = name)
    (href' : ref ≠ "") (hname' : name ≠ "") :
    Step plainLib {} (.append (sampleArgs ref name) 24 "00" .line true) (mintedWorld ref name) :=
  .appended (sample_mint href hname href' hname')

theorem isoformat_barless (t : Int) : '|' ∉ (plainLib.isoformat t).toList := by
  simp only [plainLib, String.toList_ofList, List.mem_cons, List.mem_replicate]
  rintro (h | ⟨-, h⟩)
  · split at h <;> cases h
  · cases h

/-- The approval by `C` of `A|approver=B`, read as one of `A`. -/
def forgedRecord : ReviewSignoff :=
  { sampleRecord "A|approver=B" "C" with reviewRef := "A", approver := "B|approver=C" }

theorem forgedRecord_signed : Signed plainLib forgedRecord := by
  have href : (sampleRecord "A|approver=B" "C").reviewRef.toList =
      "A".toList ++ '|' :: ("approver=".toList ++ "B".toList) := by
    decide
  have hname : forgedRecord.approver.toList = "B".toList ++ '|' :: ("approver=".toList ++
      (sampleRecord "A|approver=B" "C").approver.toList) := by
    decide
  have hpayload : forgedRecord.payload = (sampleRecord "A|approver=B" "C").payload := by
    rw [ReviewSignoff.payload, ReviewSignoff.payload, canonicalPayload, canonicalPayload, href,
      hname]
    simp only [List.append_assoc, List.cons_append]
    rfl
  exact congrArg plainLib.hmac hpayload

theorem forgedRecord_holds :
    Holds plainLib forgedRecord ["A"] 0 24 0 (0 + 24 * hour) where
  ref := List.mem_singleton.mpr rfl
  issued := by
    have h : forgedRecord.approvedAt = plainLib.isoformat 0 := rfl
    rw [h, plainLib_lawful.iso]
  ends := by
    have h : forgedRecord.expiresAt = plainLib.isoformat (0 + 24 * hour) := rfl
    rw [h, plainLib_lawful.iso]
  window := by simp
  alive := by decide

end TrwMcp.Signoff

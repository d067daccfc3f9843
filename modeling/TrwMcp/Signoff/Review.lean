import TrwMcp.State.Jsonl
import TrwMcp.Lib.Run
import TrwMcp.Lib.Text

/-!
# Review sign-offs

An approval is a signed row of an append-only journal. It resolves if a row under its identifier
carries a signature over the row's own fields and is bound to the review. Whoever has no key can
still write the journal: copy rows, and put the signature of one on the fields of another.
-/

namespace TrwMcp.Signoff

open Lib State

structure ReviewSignoff where
  approvalId : String
  reviewRef : String
  approver : String
  approvedAt : String
  expiresAt : String
  signature : String
  deriving DecidableEq

/-- The HMAC of a payload under the signing key, the timestamps, and the size of the journal. -/
structure Stdlib where
  hmac : List Char → String
  isoformat : Int → String
  /-- `_parse_iso`, in microseconds -/
  parseIso : String → Option Int
  journalBytes : JsonlFile ReviewSignoff → Nat

/-- `str.isascii()` -/
def isAscii (text : String) : Bool := text.toList.all fun c => decide (c.toNat < 128)

/-- Only equal payloads share a signature, which is a hexadecimal text, and a timestamp that was
formatted is read back. -/
structure Stdlib.Lawful (lib : Stdlib) : Prop where
  hmac : Function.Injective lib.hmac
  ascii : ∀ payload, isAscii (lib.hmac payload) = true
  iso : ∀ t, lib.parseIso (lib.isoformat t) = some t

def maxSignoffFileBytes : Nat := 4 * 1024 * 1024

def hour : Int := 3600 * 1000000

/-- `text.strip()` -/
def strip (text : String) : String := String.ofList (Text.stripChars text.toList)

/-- `_canonical_payload` -/
def canonicalPayload (approvalId reviewRef approver approvedAt expiresAt : String) : List Char :=
  "v1".toList ++ '|' :: ("approval_id=".toList ++ approvalId.toList ++ '|' ::
    ("review_ref=".toList ++ reviewRef.toList ++ '|' :: ("approver=".toList ++ approver.toList ++
      '|' :: ("approved_at=".toList ++ approvedAt.toList ++ '|' ::
        ("expires_at=".toList ++ expiresAt.toList)))))

def ReviewSignoff.payload (r : ReviewSignoff) : List Char :=
  canonicalPayload r.approvalId r.reviewRef r.approver r.approvedAt r.expiresAt

section

variable (lib : Stdlib)

def signReviewSignoff (approvalId reviewRef approver approvedAt expiresAt : String) : String :=
  lib.hmac (canonicalPayload approvalId reviewRef approver approvedAt expiresAt)

/-! ## Minting -/

structure AppendArgs where
  reviewRef : String
  approver : String
  ttlHours : Option Int := none
  now : Int

/-- The record `append_review_signoff` makes; nothing is the `ValueError`. -/
def mintSignoff (cap : Int) (args : AppendArgs) (token : String) : Option ReviewSignoff :=
  let ref := strip args.reviewRef
  let name := strip args.approver
  let hours := args.ttlHours.getD cap
  if ref = "" then none
  else if name = "" then none
  else if hours < 1 then none
  else if cap < hours then none
  else
    let approvedAt := lib.isoformat args.now
    let expiresAt := lib.isoformat (args.now + hours * hour)
    let approvalId := "opsign-" ++ token
    some
      { approvalId, reviewRef := ref, approver := name, approvedAt, expiresAt,
        signature := signReviewSignoff lib approvalId ref name approvedAt expiresAt }

/-! ## Resolving -/

inductive Reason where
  | unresolved
  | unreadable
  | signatureInvalid
  | expired
  | scopeMismatch
  | ttlExceeded
  | policyUnreadable
  deriving DecidableEq

/-- What `_check` says of a record. A signature that is not ASCII makes `compare_digest` raise. -/
inductive Checked where
  | holds
  | refused (reason : Reason)
  | typeError
  deriving DecidableEq

def check (record : ReviewSignoff) (reviewRefs : List String) (moment maxHours : Int) : Checked :=
  let expected :=
    signReviewSignoff lib record.approvalId record.reviewRef record.approver record.approvedAt
      record.expiresAt
  if !isAscii record.signature then .typeError
  else if expected ≠ record.signature then .refused .signatureInvalid
  else if record.reviewRef ∉ reviewRefs.filter (· ≠ "") then .refused .scopeMismatch
  else
    match lib.parseIso record.approvedAt, lib.parseIso record.expiresAt with
    | some approved, some expires =>
        if maxHours * hour < expires - approved then .refused .ttlExceeded
        else if expires < moment then .refused .expired
        else .holds
    | _, _ => .refused .signatureInvalid

inductive Resolution where
  | verified (approver : String)
  | refused (reason : Reason)
  | raised
  deriving DecidableEq

/-- The loop over the records of one identifier. -/
@[grind =] def resolveMatches (reviewRefs : List String) (moment maxHours : Int) :
    List ReviewSignoff → Reason → Resolution
  | [], lastReason => .refused lastReason
  | record :: records, _ =>
      match check lib record reviewRefs moment maxHours with
      | .holds => .verified record.approver
      | .refused reason => resolveMatches reviewRefs moment maxHours records reason
      | .typeError => .raised

/-- `resolve_review_signoff`; a journal that does not exist has no records. -/
def resolveReviewSignoff (file : JsonlFile ReviewSignoff) (approvalId : String)
    (reviewRefs : List String) (moment : Int) (maxHours : Option Int) : Resolution :=
  let token := strip approvalId
  if token = "" then .refused .unresolved
  else
    match maxHours with
    | none => .refused .policyUnreadable
    | some maxHours =>
        if maxSignoffFileBytes < lib.journalBytes file then .refused .unreadable
        else
          resolveMatches lib reviewRefs moment maxHours
            (file.readable.filter (·.approvalId = token)) .unresolved

/-! ## Runs -/

/-- The journal, and the records callers were given, which nothing else stores. -/
structure World where
  file : JsonlFile ReviewSignoff := {}
  returned : List ReviewSignoff := []

/-- The signature of the record is one over its own fields. -/
def Signed (r : ReviewSignoff) : Prop := lib.hmac r.payload = r.signature

inductive Deed where
  | append (args : AppendArgs) (cap : Int) (token : String) (written : Written) (returns : Bool)
  | tamper (file : JsonlFile ReviewSignoff)

/-- One step. A short write is not noticed, so an append can return whatever it wrote; and without
the key no signature comes into the journal that no minted record has. -/
inductive Step : World → Deed → World → Prop
  | appended {w : World} {args : AppendArgs} {cap : Int} {token : String} {written : Written}
      {returns : Bool} {record : ReviewSignoff} (h : mintSignoff lib cap args token = some record) :
      Step w (.append args cap token written returns)
        { file := w.file.append record written
          returned := if returns then w.returned ++ [record] else w.returned }
  | rejected {w : World} {args : AppendArgs} {cap : Int} {token : String} {written : Written}
      {returns : Bool} (h : mintSignoff lib cap args token = none) :
      Step w (.append args cap token written returns) w
  | tampered {w : World} {file : JsonlFile ReviewSignoff}
      (h : ∀ r ∈ file.readable, Signed lib r → ∃ m ∈ w.returned, m.signature = r.signature) :
      Step w (.tamper file) { w with file }

end

end TrwMcp.Signoff

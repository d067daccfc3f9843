import TrwMcp.Handoff.AhrSchema
import TrwMcp.Handoff.Loads
import TrwMcp.Handoff.Rules
import TrwMcp.Lib.Except

/-!
# L1 validation

`validate` in its order: placeholders, the schema, tokens, calendar, size, integrity, the rules of
the document's kind, URI schemes. An empty list means the record conforms at L1. A read-back is
checked against its handoff, which must be valid itself.
-/

namespace TrwMcp.Handoff

open Lib

def defaultUriSchemes : List String := ["file", "https", "trw"]

def neverSchemes : List String := ["javascript", "data"]

def timeKeys : List String := ["at", "created_at", "expires_at", "effective_at"]

def tokenKeys : List String :=
  ["id", "handoff_id", "readback_id", "event_id", "subject", "uri", "digest", "commit",
    "observed_digest", "record_digest", "prev_event_digest", "readback_digest", "claim_id",
    "action_id", "risk_id", "owner", "paths", "producer", "depends_on", "reverify"] ++ timeKeys

/-- `PLACEHOLDER` -/
def placeholderText : String := "TODO(handoff):"

/-! ## Findings from texts -/

/-- `\d+` and what follows. -/
def takeDigits (cs : List Char) : Option (List Char × List Char) :=
  let ds := cs.takeWhile Char.isDigit
  if ds.isEmpty then none else some (ds, cs.dropWhile Char.isDigit)

/-- `X-\d+|R-[A-Z]+-\d+|schema` -/
def ruleTag : List Char → Option (List Char × List Char)
  | 'X' :: '-' :: cs => do
      let (ds, rest) ← takeDigits cs
      return ('X' :: '-' :: ds, rest)
  | 'R' :: '-' :: cs => do
      let name := cs.takeWhile Char.isUpper
      guard !name.isEmpty
      let rest ← expect '-' (cs.dropWhile Char.isUpper)
      let (ds, rest) ← takeDigits rest
      return ('R' :: '-' :: (name ++ '-' :: ds), rest)
  | cs => do
      let rest ← dropLiteral "schema" cs
      return ("schema".toList, rest)

/-- `_finding`: the rule a text starts with, and the rest of the text. -/
def findingOf (text : String) : Finding :=
  match ruleTag text.toList with
  | none => ⟨"X-0", "", text⟩
  | some (tag, rest) =>
      if rest.head?.any fun c => c.isAlphanum || c == '_' then ⟨"X-0", "", text⟩
      else
        let rest := if rest.head? = some ':' then rest.drop 1 else rest
        let message := rest.dropWhile Lib.Regex.isSpace
        ⟨String.ofList tag, "", if message.isEmpty then text else String.ofList message⟩

example : findingOf "X-12 a required text" = ⟨"X-12", "", "a required text"⟩ := by decide

/-! ## Walks over the document -/

section

variable (lib : Stdlib)

/-- `_has_control` -/
def hasControl : Json → Bool
  | .str s => s.toList.any fun c => ["Cc", "Zl", "Zp"].contains (lib.category c)
  | _ => false

mutual

/-- `_tokens` -/
@[grind =] def tokens (top : Bool) : Json → List String
  | .arr xs => tokensItems xs
  | .obj ms => tokensMembers top ms
  | _ => []

@[grind =] def tokensItems : List Json → List String
  | [] => []
  | x :: xs => tokens false x ++ tokensItems xs

@[grind =] def tokensMembers (top : Bool) : List (String × Json) → List String
  | [] => []
  | (key, child) :: ms =>
      (if top && key == "extensions" then
        whenBad (child.members.any fun m => hasControl lib (.str m.1))
          "X-0 control character in an extension key"
      else
        let vals := match child with
          | .arr xs => xs
          | _ => [child]
        whenBad (tokenKeys.contains key && vals.any (hasControl lib))
          ("X-0 control character in " ++ key) ++ tokens false child) ++ tokensMembers top ms

end

/-- `instant` raises on the value. -/
def impossibleTime (text : String) : Bool :=
  match instant text with
  | .ok _ => false
  | .error _ => true

mutual

/-- `_times` -/
@[grind =] def times (top : Bool) : Json → List String
  | .arr xs => timesItems xs
  | .obj ms => timesMembers top ms
  | _ => []

@[grind =] def timesItems : List Json → List String
  | [] => []
  | x :: xs => times false x ++ timesItems xs

@[grind =] def timesMembers (top : Bool) : List (String × Json) → List String
  | [] => []
  | (key, child) :: ms =>
      (if top && key == "extensions" then []
      else
        (match child with
          | .str text => whenBad (timeKeys.contains key && impossibleTime text)
              ("R-TIME-1 impossible calendar timestamp in " ++ key ++ ": " ++ text)
          | _ => []) ++ times false child) ++ timesMembers top ms

end

/-- `child.partition(":")[0].lower()` -/
def schemeOf (uri : String) : String :=
  String.ofList ((uri.toList.takeWhile (· != ':')).map Char.toLower)

mutual

/-- `_uri_findings` -/
@[grind =] def uriFindings (allowed : List String) (path : String) : Json → List Finding
  | .arr xs => uriItems allowed path 0 xs
  | .obj ms => uriMembers allowed path ms
  | _ => []

@[grind =] def uriItems (allowed : List String) (path : String) (i : Nat) : List Json → List Finding
  | [] => []
  | x :: xs => uriFindings allowed (path ++ "/" ++ toString i) x ++ uriItems allowed path (i + 1) xs

@[grind =] def uriMembers (allowed : List String) (path : String) : List (String × Json) → List Finding
  | [] => []
  | (key, child) :: ms =>
      let here := path ++ "/" ++ key
      (if path == "" && key == "extensions" then []
      else
        (match child with
          | .str uri =>
              let scheme := schemeOf uri
              if key == "uri" && (neverSchemes.contains scheme || !allowed.contains scheme) then
                [⟨"R-SEC-2", here, "URI scheme " ++ reprStr lib scheme ++
                  " is not on the allowlist"⟩]
              else []
          | _ => []) ++ uriFindings allowed here child) ++ uriMembers allowed path ms

end

mutual

/-- `_placeholder_findings` -/
@[grind =] def placeholderFindings (path : String) : Json → List Finding
  | .str value =>
      if placeholderText.toList <:+: value.toList then
        [⟨"placeholder", if path == "" then "<root>" else path,
          "unfilled draft value: replace the " ++ placeholderText ++ " sentinel"⟩]
      else []
  | .arr xs => placeholderItems path 0 xs
  | .obj ms => placeholderMembers path ms
  | _ => []

@[grind =] def placeholderItems (path : String) (i : Nat) : List Json → List Finding
  | [] => []
  | x :: xs =>
      placeholderFindings (path ++ "/" ++ toString i) x ++ placeholderItems path (i + 1) xs

@[grind =] def placeholderMembers (path : String) : List (String × Json) → List Finding
  | [] => []
  | (key, child) :: ms =>
      (if path == "" && key == "extensions" then []
      else placeholderFindings (path ++ "/" ++ key) child) ++ placeholderMembers path ms

end

/-! ## The schema -/

/-- `path.lstrip("/")` -/
def lstripSlash (path : String) : String := String.ofList (path.toList.dropWhile (· == '/'))

/-- An error a draft sentinel explains. -/
def explained (held : List String) (path validator : String) : Bool :=
  held.contains path ||
    (validator == "oneOf" && held.any fun h => (path ++ "/").toList.isPrefixOf h.toList)

/-- `_schema_findings` -/
def schemaFindings (doc : Json) (held : List String) : List Finding :=
  (schemaErrors lib AhrSchema.ahrSchema doc).filterMap fun e =>
    let path := "/".intercalate (e.path.map Seg.text)
    if explained held path e.validator then none
    else some ⟨"schema", if path == "" then "<root>" else path,
      lib.schemaMessage e.validator path doc⟩

/-! ## Validation -/

/-- The recorded digest, if there is one, is the recomputed one. -/
def integrityErrors (doc : Json) : Py (List String) := do
  match (← doc.get "integrity").filter Json.truthy with
  | some integ =>
      return whenBad (decide ((← integ.item "digest") ≠ .str (← digest lib doc)))
        "X-1 integrity.digest does not match the recomputed digest"
  | none => return []

/-- An event's verifier, if it is the event's actor, has the actor's kind. -/
def verifierKindErrors (doc kind : Json) : Py (List String) := do
  if decide (kind = .str "event") && doc.has "verification" then
    let verifier ← (← doc.item "verification").item "verifier"
    let actor ← doc.item "actor"
    if (← verifier.item "id") = (← actor.item "id") then
      return whenBad (decide ((← verifier.item "kind") ≠ (← actor.item "kind")))
        "X-21 principal id appears with two different kinds (actor vs verifier)"
  return []

/-- The rules of the document's kind. -/
def kindErrors (readback : Json → Py (List String)) (doc kind : Json) : Py (List String) :=
  if kind = .str "handoff" then checkHandoff lib doc
  else if kind = .str "readback" then readback doc
  else pure []

/-- `_l1_findings`, given what the read-back branch adds. -/
def l1Findings (readback : Json → Py (List String)) (doc : Json) (held : List String) :
    Py (List Finding) := do
  let schema := schemaFindings lib doc held
  if !held.isEmpty then return schema
  if !schema.isEmpty then return schema ++ (tokens lib true doc).map findingOf
  match jcs doc with
  | .error (.jcsError message) => return [findingOf message]
  | .error e => throw e
  | .ok raw =>
      let bad := tokens lib true doc
      if !bad.isEmpty then return bad.map findingOf
      let bad := times true doc
      if !bad.isEmpty then return bad.map findingOf
      let size := whenBad (decide (maxCanonicalBytes < raw.size))
        ("X-0 canonical size " ++ toString raw.size ++ " bytes exceeds 32 KiB (R-SIZE-2)")
      let integrity ← integrityErrors lib doc
      let kind ← doc.item "type"
      let verifierKind ← verifierKindErrors doc kind
      let rules ← kindErrors lib readback doc kind
      return (size ++ integrity ++ verifierKind ++ rules).map findingOf ++
        uriFindings lib (defaultUriSchemes.filter (!neverSchemes.contains ·)) "" doc

/-- `validate`, given what the read-back branch adds. -/
def validateWith (readback : Json → Py (List String)) (doc : Json) : Py (List Finding) := do
  let drafts := placeholderFindings "" doc
  let held := drafts.map fun f => lstripSlash f.path
  let found ← l1Findings lib readback doc held
  return drafts ++ found.filter fun f => !held.contains (lstripSlash f.path)

def missingHandoff : PyErr := .ahrInputError "a readback needs its handoff record (--handoff)"

/-- `_handoff_for_readback` -/
def handoffForReadback (handoff : Option Json) : Py Json :=
  match handoff with
  | none => throw missingHandoff
  | some handoff => do
      if (← handoff.get "type") ≠ some (.str "handoff") then
        throw (.ahrInputError "--handoff is not a handoff record")
      -- the document is a handoff, so the branch for read-backs is not taken
      match ← validateWith lib (fun _ => throw missingHandoff) handoff with
      | [] => return handoff
      | bad :: _ => throw (.ahrInputError ("--handoff is not a valid handoff record: " ++
          bad.rule ++ " " ++ bad.message))

/-- `validate` -/
def validate (doc : Json) (handoff : Option Json) : Py (List Finding) :=
  validateWith lib (fun doc => do checkReadback lib doc (← handoffForReadback lib handoff)) doc

/-- `check_doc`: every L1 finding as one text. -/
def checkDoc (doc : Json) (handoff : Option Json) : Py (List String) := do
  return (← validate lib doc handoff).map fun f => f.rule ++ " " ++ f.message

/-! ## What a clean validation says -/

variable {lib : Stdlib} {doc : Json} {readback : Json → Py (List String)}

theorem l1Findings_nil (h : l1Findings lib readback doc [] = .ok [])
    (htype : doc.get? "type" = some (.str "handoff")) : checkHandoff lib doc = .ok [] := by
  simp only [l1Findings, List.isEmpty_nil, Bool.not_true, Bool.false_eq_true, if_false] at h
  split at h
  · next hschema => simp_all [Except.pure_eq_ok]
  cases hjcs : jcs doc with
  | error e => cases e <;> simp [hjcs, Except.pure_eq_ok, Except.throw_ne_ok] at h
  | ok raw =>
      simp only [hjcs, ite_eq_iff, Except.bind_eq_ok, Except.pure_eq_ok, List.append_eq_nil_iff,
        List.map_eq_nil_iff] at h
      rcases h with ⟨hbad, hnil⟩ | ⟨_, ⟨hbad, hnil⟩ | ⟨_, h⟩⟩
      · simp [hnil] at hbad
      · simp [hnil] at hbad
      · obtain ⟨integrity, _, kind, hkind, verifierKind, _, rules, hrules, ⟨_, rfl⟩, _⟩ := h
        obtain rfl : kind = .str "handoff" := by
          rw [Json.item_ok hkind] at htype
          exact Option.some.inj htype
        exact hrules

theorem checkHandoff_of_valid {handoff : Option Json} (h : checkDoc lib doc handoff = .ok [])
    (htype : doc.get? "type" = some (.str "handoff")) : checkHandoff lib doc = .ok [] := by
  simp only [checkDoc, validate, validateWith, Except.bind_eq_ok, Except.pure_eq_ok,
    List.map_eq_nil_iff] at h
  obtain ⟨findings, ⟨found, hfound, hall⟩, rfl⟩ := h
  obtain ⟨hdrafts, hkept⟩ := List.append_eq_nil_iff.mp hall
  rw [hdrafts] at hfound hkept
  obtain rfl : found = [] := by simpa using hkept
  exact l1Findings_nil hfound htype

theorem handoffPrincipals_of_valid {handoff : Option Json} (h : checkDoc lib doc handoff = .ok [])
    (htype : doc.get? "type" = some (.str "handoff")) : handoffPrincipals lib doc = .ok [] := by
  have hclean := checkHandoff_of_valid h htype
  simp only [checkHandoff, Except.bind_eq_ok, Except.pure_eq_ok, List.append_eq_nil_iff] at hclean
  obtain ⟨_, _, _, _, _, _, _, _, _, _, _, _, _, _, _, _, principals, hprincipals, hrest⟩ := hclean
  obtain ⟨_, _, _, _, _, _, _, _, _, _, ⟨⟨⟨_, rfl⟩, _⟩, _⟩, _⟩ := hrest
  exact hprincipals

theorem sender_ne_receiver (h : handoffPrincipals lib doc = .ok []) {recipient sender id : Json}
    (hto : doc.item "to" = .ok recipient) (hfrom : doc.item "from" = .ok sender)
    (hkind : recipient.get? "kind" ≠ some (.str "unaddressed"))
    (hid : recipient.get? "id" = some id) : sender.get? "id" ≠ some id := by
  simp only [handoffPrincipals, hto, hfrom, isSelfAddressed, Except.bind_eq_ok, Except.pure_eq_ok,
    ite_eq_iff, List.append_eq_nil_iff, whenBad_eq_nil, Except.ok.injEq, exists_eq_left'] at h
  obtain ⟨self, ⟨kind, hget, hself⟩, h⟩ := h
  obtain ⟨_, _, _, _, _, _, _, _, _, _, _, _, ⟨hno, _⟩, _⟩ := h
  rcases hself with ⟨hun, _⟩ | ⟨_, own, hown, other, hother, rfl⟩
  · rw [Json.get_ok hget, hun] at hkind
    exact absurd rfl hkind
  · rw [Json.item_ok hother]
    rw [Json.item_ok hown, Option.some.injEq] at hid
    simpa [hid, eq_comm] using hno

end

end TrwMcp.Handoff

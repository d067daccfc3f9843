import TrwMcp.Handoff.Schema

/-!
# The packaged AHR schema

`ahr.schema.json`, definition by definition, in the order of the file: three document kinds
dispatched by `type`. Its patterns are the `Lib.Regex` ones, so `$` matches before a final line
feed, as `re.search` has it.
-/

namespace TrwMcp.Handoff.AhrSchema

open Lib.Regex

/-! ## Patterns -/

/-- `^[A-Za-z0-9][A-Za-z0-9._:-]{0,127}$` -/
def idPattern : Pattern :=
  seq start (seq (char isAlnum) (seq (rep (char idChar) 0 (some 127)) stop))
where
  idChar (c : Char) : Bool := isAlnum c || ['.', '_', ':', '-'].contains c

/-- `^(000[1-9]|00[1-9][0-9]|0[1-9][0-9]{2}|[1-9][0-9]{3})-(0[1-9]|1[0-2])-`
`(0[1-9]|[12][0-9]|3[01])T([01][0-9]|2[0-3]):[0-5][0-9]:[0-5][0-9](\.[0-9]{1,6})?Z$` -/
def timestampPattern : Pattern :=
  seq start <| seq year <| seq (literal "-") <| seq month <| seq (literal "-") <| seq day <|
    seq (literal "T") <| seq hour <| seq (literal ":") <| seq sixty <| seq (literal ":") <|
    seq sixty <| seq (opt (seq (literal ".") (rep digit 1 (some 6)))) <| seq (literal "Z") stop
where
  digit : Pattern := char isDigit
  nonzero : Pattern := char (range '1' '9')
  year : Pattern :=
    alt (seq (literal "000") nonzero) <| alt (seq (literal "00") (seq nonzero digit)) <|
      alt (seq (literal "0") (seq nonzero (rep digit 2 (some 2)))) <|
        seq nonzero (rep digit 3 (some 3))
  month : Pattern := alt (seq (literal "0") nonzero) (seq (literal "1") (char (range '0' '2')))
  day : Pattern :=
    alt (seq (literal "0") nonzero) <| alt (seq (char (range '1' '2')) digit) <|
      seq (literal "3") (char (range '0' '1'))
  hour : Pattern :=
    alt (seq (char (range '0' '1')) digit) (seq (literal "2") (char (range '0' '3')))
  sixty : Pattern := seq (char (range '0' '5')) digit

/-- `[0-9a-f]` -/
def hexLower (c : Char) : Bool := isDigit c || range 'a' 'f' c

/-- `^sha256:[0-9a-f]{64}$` -/
def digestPattern : Pattern :=
  seq start (seq (literal "sha256:") (seq (rep (char hexLower) 64 (some 64)) stop))

/-- `[^\s\u200b\u200c\u200d\u2060\ufeff\u3164\u1160\u115f\uffa0]` -/
def visiblePattern : Pattern :=
  char fun c => !isSpace c &&
    !(['\u200b', '\u200c', '\u200d', '\u2060', '\ufeff', '\u3164', '\u1160', '\u115f',
      '\uffa0'].contains c)

/-- `^https?://(LABEL(\.LABEL)*|\[[0-9A-Fa-f:.]+\])(:[0-9]{1,5})?(/[^\s]*)?$`, where a `LABEL` is
`[A-Za-z0-9]([A-Za-z0-9-]*[A-Za-z0-9])?` -/
def namespacePattern : Pattern :=
  seq start <| seq (literal "http") <| seq (opt (literal "s")) <| seq (literal "://") <|
    seq (alt names address) <| seq (opt (seq (literal ":") (rep (char isDigit) 1 (some 5)))) <|
    seq (opt (seq (literal "/") (star (char fun c => !isSpace c)))) stop
where
  label : Pattern :=
    seq (char isAlnum) (opt (seq (star (char fun c => isAlnum c || c == '-')) (char isAlnum)))
  names : Pattern := seq label (star (seq (literal ".") label))
  address : Pattern :=
    seq (literal "[") (seq (plus (char fun c => hexLower c || range 'A' 'F' c || c == ':' ||
      c == '.')) (literal "]"))

/-- `^[0-9a-f]{7,64}$` -/
def commitPattern : Pattern := seq start (seq (rep (char hexLower) 7 (some 64)) stop)

/-- `^(?![/\\])(?!.*(^|/)\.\.(/|$))[^\u0000-\u001f\u007f\\\u2028\u2029]+$` -/
def pathPattern : Pattern :=
  seq start <| seq (notAhead (char fun c => c == '/' || c == '\\')) <|
    seq (notAhead (seq (star (char fun c => c != '\n')) (seq (alt start (literal "/"))
      (seq (literal "..") (alt (literal "/") stop))))) <|
    seq (plus (char pathChar)) stop
where
  pathChar (c : Char) : Bool :=
    decide (32 ≤ c.toNat) && !(['\x7f', '\\', '\u2028', '\u2029'].contains c)

/-- `^[A-Za-z][A-Za-z0-9+.-]*:[^\s]+$` -/
def uriPattern : Pattern :=
  seq start <| seq (char fun c => isLower c || isUpper c) <|
    seq (star (char fun c => isAlnum c || ['+', '.', '-'].contains c)) <| seq (literal ":") <|
    seq (plus (char fun c => !isSpace c)) stop

/-! ## Definitions -/

/-- `{"enum": [...]}` of strings -/
def strEnum (values : List String) : Schema := [.enum (values.map .str)]

/-- `{"const": "..."}` -/
def strConst (value : String) : Schema := [.const (.str value)]

/-- `{"properties": {name: schema}, "required": [name]}`, the usual condition of an `if` -/
def given (name : String) (schema : Schema) : Schema :=
  [.properties [(name, schema)], .required [name]]

def idSchema : Schema :=
  [.type "string", .pattern idPattern]

def timestamp : Schema :=
  [.type "string", .pattern timestampPattern]

def digestSchema : Schema :=
  [.type "string", .pattern digestPattern]

def text : Schema :=
  [.type "string", .minLength 1, .maxLength 2000, .pattern visiblePattern]

def short : Schema :=
  [.type "string", .minLength 1, .maxLength 280, .pattern visiblePattern]

def principal : Schema :=
  [.type "object", .required ["id", "kind"],
   .properties
     [("id", idSchema), ("kind", strEnum ["agent", "human", "service"]), ("model", short),
      ("capability_tier", strEnum ["frontier", "balanced", "local-large", "local-small"]),
      ("session", short)],
   .closed ["id", "kind", "model", "capability_tier", "session"]]

def recipient : Schema :=
  [.oneOf
     [principal,
      [.type "object", .required ["kind", "scope"],
       .properties [("kind", strConst "unaddressed"), ("scope", short), ("completer", principal)],
       .closed ["kind", "scope", "completer"]]]]

def uri : Schema :=
  [.type "string", .minLength 3, .maxLength 2048, .pattern uriPattern]

def refSchema : Schema :=
  [.type "object", .required ["uri"],
   .properties [("uri", uri), ("digest", digestSchema), ("media_type", short)],
   .closed ["uri", "digest", "media_type"]]

def evidence : Schema :=
  [.type "object", .required ["procedure", "scope", "result", "at"],
   .properties
     [("procedure", text), ("scope", text),
      ("result", strEnum ["supports", "contradicts", "inconclusive"]), ("at", timestamp),
      ("producer", idSchema), ("raw", refSchema)],
   .closed ["procedure", "scope", "result", "at", "producer", "raw"]]

def claim : Schema :=
  [.type "object", .required ["id", "text", "label"],
   .properties
     [("id", idSchema),
      ("text", [.type "string", .minLength 1, .maxLength 300, .pattern visiblePattern]),
      ("label", strEnum ["observed", "verified", "inferred", "unknown"]), ("basis", text),
      ("evidence", [.type "array", .minItems 1, .items evidence])],
   .allOf
     [[.ifThenElse (given "label" (strConst "verified"))
         [.required ["evidence"],
          .properties [("evidence", [.items [.properties [("result", strConst "supports")]]])]] []],
      [.ifThenElse (given "label" (strEnum ["observed", "inferred"])) [.required ["basis"]] []]],
   .closed ["id", "text", "label", "basis", "evidence"]]

def noneKnown : Schema :=
  [.type "object", .required ["none_known", "checked"],
   .properties [("none_known", [.const (.bool true)]), ("checked", text)],
   .closed ["none_known", "checked"]]

def risk : Schema :=
  [.type "object", .required ["id", "text", "severity"],
   .properties
     [("id", idSchema), ("text", text), ("severity", strEnum ["low", "medium", "high"]),
      ("mitigation", text)],
   .closed ["id", "text", "severity", "mitigation"]]

def risksOrNone : Schema :=
  [.oneOf [[.type "array", .minItems 1, .items risk], noneKnown]]

def textsOrNone : Schema :=
  [.oneOf [[.type "array", .minItems 1, .items text], noneKnown]]

def action : Schema :=
  [.type "object", .required ["id", "action", "done_when"],
   .properties
     [("id", idSchema), ("action", text), ("owner", idSchema), ("done_when", text),
      ("depends_on", [.type "array", .items idSchema]),
      ("rollback",
       [.type "object", .required ["procedure"],
        .properties [("procedure", text), ("record", refSchema)],
        .closed ["procedure", "record"]])],
   .closed ["id", "action", "owner", "done_when", "depends_on", "rollback"]]

def nextRead : Schema :=
  [.type "object", .required ["uri", "why"],
   .properties
     [("uri", uri), ("why", short), ("digest", digestSchema),
      ("kind", strEnum ["file", "section", "url", "record", "artifact"])],
   .closed ["uri", "why", "digest", "kind"]]

def integrity : Schema :=
  [.type "object", .required ["canonicalization", "digest"],
   .properties
     [("canonicalization", strConst "RFC8785"), ("digest", digestSchema), ("signature", refSchema)],
   .closed ["canonicalization", "digest", "signature"]]

def extensions : Schema :=
  [.type "object", .propertyNames [.pattern namespacePattern, .maxLength 2048]]

def constraint : Schema :=
  [.oneOf
     [text,
      [.type "object", .required ["text", "source"],
       .properties
         [("text", text), ("source", [.allOf [refSchema, [.required ["uri", "digest"]]]]),
          ("excerpt", [.type "boolean"])],
       .closed ["text", "source", "excerpt"]]]]

def handoffSchema : Schema :=
  [.type "object",
   .required
     ["ahr", "type", "handoff_id", "subject", "tier", "tier_reason", "from", "to", "created_at",
      "as_of", "objective", "claims", "not_done", "risks", "unknowns", "next_actions", "next_read"],
   .properties
     [("ahr", strEnum ["1.0-rc.1", "1.0-rc.2"]), ("type", strConst "handoff"),
      ("handoff_id", idSchema), ("subject", idSchema),
      ("tier", strEnum ["minimal", "standard", "critical"]), ("from", principal),
      ("to", recipient), ("created_at", timestamp), ("expires_at", timestamp),
      ("as_of",
       [.type "object", .required ["at"],
        .properties
          [("at", timestamp),
           ("base_ref",
            [.type "object", .required ["tree_state"],
             .properties
               [("commit", [.type "string", .pattern commitPattern]),
                ("tree_state", strEnum ["clean", "dirty", "unknown", "not_applicable"]),
                ("changed_paths", refSchema), ("branch", short)],
             .closed ["commit", "tree_state", "changed_paths", "branch"]]),
           ("run_ref", short)],
        .closed ["at", "base_ref", "run_ref"]]),
      ("supersedes",
       [.type "array",
        .items
          [.type "object", .required ["handoff_id", "digest"],
           .properties [("handoff_id", idSchema), ("digest", digestSchema)],
           .closed ["handoff_id", "digest"]]]),
      ("objective",
       [.type "object", .required ["goal", "done_when"],
        .properties
          [("goal", text), ("intent", text),
           ("done_when", [.type "array", .minItems 1, .items text]),
           ("paths",
            [.type "array", .minItems 1, .maxItems 50, .uniqueItems,
             .items [.type "string", .minLength 1, .maxLength 512, .pattern pathPattern]])],
        .closed ["goal", "intent", "done_when", "paths"]]),
      ("constraints", [.oneOf [[.type "array", .maxItems 50, .items constraint], noneKnown]]),
      ("claims", [.type "array", .minItems 1, .items claim, .maxItems 30]),
      ("not_done", textsOrNone), ("risks", risksOrNone), ("unknowns", textsOrNone),
      ("contingencies",
       [.type "array",
        .items
          [.type "object", .required ["if", "then"], .properties [("if", text), ("then", text)],
           .closed ["if", "then"]]]),
      ("decisions",
       [.type "array",
        .items
          [.type "object", .required ["decision", "rationale"],
           .properties
             [("decision", text), ("rationale", text), ("rejected", [.type "array", .items text]),
              ("decided_by",
               [.type "object", .required ["authority"],
                .properties
                  [("authority", strEnum ["operator", "lead", "sender", "policy"]),
                   ("id", idSchema)],
                .closed ["authority", "id"]])],
           .closed ["decision", "rationale", "rejected", "decided_by"]]]),
      ("next_actions", [.type "array", .minItems 1, .items action]),
      ("next_read", [.type "array", .minItems 1, .maxItems 12, .items nextRead]),
      ("readback",
       [.type "object",
        .properties
          [("required", [.type "boolean"]), ("reverify", [.type "array", .items idSchema]),
           ("verifier", principal)],
        .closed ["required", "reverify", "verifier"]]),
      ("integrity", integrity), ("extensions", extensions), ("tier_reason", short)],
   .allOf
     [[.ifThenElse [.properties [("tier", strEnum ["standard", "critical"])]]
         [.required ["readback", "integrity"],
          .properties
            [("objective", [.required ["intent"]]), ("as_of", [.required ["base_ref"]]),
             ("readback",
              [.required ["required"], .properties [("required", [.const (.bool true)])]])]] []],
      [.ifThenElse [.properties [("tier", strConst "critical")]]
         [.required ["contingencies", "expires_at", "constraints"],
          .properties
            [("contingencies", [.minItems 1]), ("to", principal),
             ("readback", [.required ["reverify", "verifier"]]),
             ("as_of",
              [.properties
                 [("base_ref", [.properties [("tree_state", [.not (strConst "unknown")])]])]]),
             ("next_actions", [.items [.required ["depends_on"]]])],
          .allOf
            [[.ifThenElse (given "constraints" [.type "array"])
                [.properties [("constraints", [.minItems 1])]] []]]] []],
      [.ifThenElse [.properties [("to", given "kind" (strConst "unaddressed"))]]
         [.required ["expires_at"]] []]],
   .closed
     ["ahr", "type", "handoff_id", "subject", "tier", "from", "to", "created_at", "expires_at",
      "as_of", "supersedes", "objective", "constraints", "claims", "not_done", "risks", "unknowns",
      "contingencies", "decisions", "next_actions", "next_read", "readback", "integrity",
      "extensions", "tier_reason"]]

def readbackSchema : Schema :=
  [.type "object",
   .required
     ["ahr", "type", "readback_id", "handoff", "by", "at", "goal_restated", "first_action",
      "top_risk", "reverified", "discrepancies", "questions", "disposition", "pointer_checks"],
   .properties
     [("ahr", strEnum ["1.0-rc.1", "1.0-rc.2"]), ("type", strConst "readback"),
      ("readback_id", idSchema),
      ("handoff",
       [.type "object", .required ["handoff_id", "digest"],
        .properties [("handoff_id", idSchema), ("digest", digestSchema)],
        .closed ["handoff_id", "digest"]]),
      ("by", principal), ("at", timestamp), ("goal_restated", text),
      ("first_action",
       [.type "object", .required ["action_id", "restated"],
        .properties [("action_id", idSchema), ("restated", text)],
        .closed ["action_id", "restated"]]),
      ("top_risk",
       [.type "object", .required ["restated"],
        .properties [("risk_id", idSchema), ("restated", text)], .closed ["risk_id", "restated"]]),
      ("reverified",
       [.type "array",
        .items
          [.type "object", .required ["claim_id", "result"],
           .properties
             [("claim_id", idSchema),
              ("result", strEnum ["confirmed", "contradicted", "not_checked", "not_checkable"]),
              ("evidence", evidence)],
           .allOf
             [[.ifThenElse (given "result" (strConst "confirmed"))
                 [.required ["evidence"],
                  .properties [("evidence", [.properties [("result", strConst "supports")]])]] []],
              [.ifThenElse (given "result" (strConst "contradicted"))
                 [.required ["evidence"],
                  .properties [("evidence", [.properties [("result", strConst "contradicts")]])]]
                 []],
              [.ifThenElse (given "result" (strConst "not_checkable"))
                 [.required ["evidence"],
                  .properties [("evidence", [.properties [("result", strConst "inconclusive")]])]]
                 []]],
           .closed ["claim_id", "result", "evidence"]]]),
      ("discrepancies",
       [.type "array",
        .items
          [.type "object", .required ["text"],
           .properties
             [("claim_id", idSchema), ("text", text),
              ("pointer_index", [.type "integer", .minimum 0, .maximum 11])],
           .closed ["claim_id", "text", "pointer_index"]]]),
      ("questions", [.type "array", .items text]), ("disposition", strEnum ["ready", "questions"]),
      ("integrity", integrity), ("extensions", extensions), ("done_when_restated", text),
      ("pointer_checks",
       [.type "array",
        .items
          [.type "object", .required ["index", "status"],
           .properties
             [("index", [.type "integer", .minimum 0, .maximum 11]),
              ("status", strEnum ["match", "drift", "missing", "no_digest", "not_accessed"]),
              ("observed_digest", digestSchema)],
           .closed ["index", "status", "observed_digest"],
           .allOf
             [[.ifThenElse (given "status" (strEnum ["match", "drift"]))
                 [.required ["observed_digest"]] []],
              [.ifThenElse (given "status" (strEnum ["missing", "no_digest", "not_accessed"]))
                 [.not [.required ["observed_digest"]]] []]]]]),
      ("constraints_restated",
       [.type "array",
        .items
          [.type "object", .required ["index", "text"],
           .properties [("index", [.type "integer", .minimum 0, .maximum 49]), ("text", text)],
           .closed ["index", "text"]]])],
   .closed
     ["ahr", "type", "readback_id", "handoff", "by", "at", "goal_restated", "first_action",
      "top_risk", "reverified", "discrepancies", "questions", "disposition", "integrity",
      "extensions", "done_when_restated", "pointer_checks", "constraints_restated"],
   .allOf
     [[.ifThenElse (given "disposition" (strConst "questions"))
         [.properties [("questions", [.minItems 1])]]
         [.properties [("questions", [.maxItems 0])]]]]]

def eventSchema : Schema :=
  [.type "object",
   .required
     ["ahr", "type", "event_id", "handoff_id", "record_digest", "seq", "event", "actor", "at"],
   .properties
     [("ahr", strEnum ["1.0-rc.1", "1.0-rc.2"]), ("type", strConst "event"),
      ("event_id", idSchema), ("handoff_id", idSchema), ("record_digest", digestSchema),
      ("event",
       strEnum
         ["offered", "read_back", "answered", "readback_verified", "accepted", "declined",
          "reported", "completed", "withdrawn", "superseded", "expired"]),
      ("actor", principal), ("at", timestamp), ("ref", refSchema), ("reason", text),
      ("effective_at", timestamp),
      ("seq", [.type "integer", .minimum 1, .maximum 9007199254740991]),
      ("verification",
       [.type "object", .required ["outcome", "verifier", "method", "rationale"],
        .properties
          [("outcome", strEnum ["pass", "pass_with_flags", "fail"]), ("verifier", principal),
           ("method", strEnum ["deterministic", "judge", "human"]),
           ("confidence", strEnum ["low", "medium", "high"]), ("rationale", text),
           ("readback_digest", digestSchema)],
        .closed ["outcome", "verifier", "method", "confidence", "rationale", "readback_digest"],
        .allOf [[.ifThenElse (given "method" (strConst "judge")) [.required ["confidence"]] []]]]),
      ("extensions", extensions), ("outcome", strEnum ["met", "returned", "escalated"]),
      ("prev_event_digest", digestSchema)],
   .closed
     ["ahr", "type", "event_id", "handoff_id", "record_digest", "event", "actor", "at", "ref",
      "reason", "effective_at", "seq", "verification", "extensions", "outcome",
      "prev_event_digest"],
   .allOf
     [[.ifThenElse (given "event" (strConst "accepted")) [.required ["effective_at"]] []],
      [.ifThenElse (given "event" (strEnum ["declined", "withdrawn"])) [.required ["reason"]] []],
      [.ifThenElse (given "event" (strEnum ["read_back", "answered", "reported", "superseded"]))
         [.required ["ref"], .properties [("ref", [.required ["uri", "digest"]])]] []],
      [.ifThenElse (given "event" (strConst "readback_verified"))
         [.required ["verification"],
          .properties
            [("verification",
              [.required ["outcome", "verifier", "method", "rationale", "readback_digest"]])]] []],
      [.not
         [.required ["verification"],
          .properties [("event", [.not (strConst "readback_verified")])]]],
      [.ifThenElse (given "event" (strConst "reported")) [.required ["outcome"]] []],
      [.not [.required ["outcome"], .properties [("event", [.not (strConst "reported")])]]],
      [.ifThenElse (given "event" (strEnum ["read_back", "superseded"]))
         [.properties
            [("ref",
              [.required ["uri", "digest", "media_type"],
               .properties [("media_type", strConst "application/vnd.ahr+json")]])]] []],
      [.not [.required ["effective_at"], .properties [("event", [.not (strConst "accepted")])]]],
      [.ifThenElse [.properties [("event", strConst "declined")], .required ["event", "ref"]]
         [.properties [("ref", [.required ["uri", "digest"]])]] []]]]

/-- The packaged schema. -/
def ahrSchema : Schema :=
  [.type "object", .required ["type"],
   .properties [("type", strEnum ["handoff", "readback", "event"])],
   .allOf
     [[.ifThenElse [.properties [("type", strConst "handoff")]] handoffSchema []],
      [.ifThenElse [.properties [("type", strConst "readback")]] readbackSchema []],
      [.ifThenElse [.properties [("type", strConst "event")]] eventSchema []]]]

end TrwMcp.Handoff.AhrSchema

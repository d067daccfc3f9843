import TrwMcp.Intent.ControlPlane
import TrwMcp.Handoff.Digest

/-!
# What a clean comparison keeps

A comparison without findings keeps every intent registration of the base, as long as no key of the
dictionaries it goes through stands for two registrations that differ.
-/

namespace TrwMcp.Intent

open Handoff Lib

section

variable (lib : Stdlib) (load : Loaders)

/-- An element of the event's list in the settings file has this text. -/
def Registered (read : BlobReader) (path event : String) (text : List Char) : Prop :=
  ∃ document entries entry, readSettings lib read path = .ok (some (some document)) ∧
    (event, entries) ∈ hookEvents document ∧ entry ∈ eventEntries entries ∧
    registrationText lib entry = text

/-- A command hook of the event in the settings file that names the intent hook file. -/
def HookAt (read : BlobReader) (path event file : String) (hook : Json) : Prop :=
  ∃ document hooks, readSettings lib read path = .ok (some (some document)) ∧
    fileHooks document = .ok hooks ∧ (event, hook) ∈ hooks ∧
    contains file (hookCommand lib hook).toList = true

/-- An intent hook of the pre-commit configuration. -/
def PreCommitHook (read : BlobReader) (id : String) (text : List Char) : Prop :=
  ∃ hook ∈ preCommitHooks (safeYaml load (read preCommitConfigPath)),
    intentHookId hook = some id ∧ dumps lib spaced hook = text

/-- The timeout the client applies to a hook. -/
def effectiveTimeout (hook : Json) : Int := (hookTimeout hook).getD clientDefaultTimeout

/-- A timeout an intent hook file has in a snapshot; without any hook, the client's default. -/
def HasTimeout (read : BlobReader) (path event file : String) (timeout : Int) : Prop :=
  (∃ hook, HookAt lib read path event file hook ∧ effectiveTimeout hook = timeout) ∨
    ((∀ hook, ¬HookAt lib read path event file hook) ∧ timeout = clientDefaultTimeout)

/-- Nothing the base registers is gone, altered or cut short in the candidate. -/
structure RegistrationsKept (floor : Dict String Int) (base candidate : BlobReader) : Prop where
  settings : ∀ path ∈ settingsPaths, ∀ event text, Registered lib base path event text →
    (∃ file ∈ intentHookFiles, contains file text = true) →
    Registered lib candidate path event text
  preCommit : ∀ id text, PreCommitHook lib load base id text →
    PreCommitHook lib load candidate id text
  timeouts : ∀ path ∈ settingsPaths, ∀ event, ∀ file ∈ intentHookFiles, ∀ hook timeout before least,
    HookAt lib candidate path event file hook → hookTimeout hook = some timeout →
    HasTimeout lib base path event file before → Dict.lookup floor file = some least →
    ¬(timeout < before ∧ timeout < least)

/-- No key stands for two registrations that differ. -/
structure OneEach (base candidate : BlobReader) : Prop where
  settings : ∀ path ∈ settingsPaths, ∀ event, ∀ file ∈ intentHookFiles, ∀ text text',
    Registered lib base path event text → Registered lib base path event text' →
    contains file text = true → contains file text' = true → text = text'
  preCommit : ∀ id text text', PreCommitHook lib load base id text →
    PreCommitHook lib load base id text' → text = text'
  baseTimeouts : ∀ path ∈ settingsPaths, ∀ event, ∀ file ∈ intentHookFiles, ∀ hook hook',
    HookAt lib base path event file hook → HookAt lib base path event file hook' →
    effectiveTimeout hook = effectiveTimeout hook'
  candidateTimeouts : ∀ path ∈ settingsPaths, ∀ event, ∀ file ∈ intentHookFiles,
    ∀ hook hook' t t', HookAt lib candidate path event file hook →
    HookAt lib candidate path event file hook' → hookTimeout hook = some t →
    hookTimeout hook' = some t' → t = t'

end

/-! ## Keys -/

theorem keyFile_append {lead file : String} (h : ':' ∉ file.toList) :
    keyFile (lead ++ ":" ++ file) = file := by
  have htoList : (lead ++ ":" ++ file).toList.reverse =
      file.toList.reverse ++ ':' :: lead.toList.reverse := by simp
  have hall : ∀ c ∈ file.toList.reverse, decide (c ≠ ':') = true := by
    intro c hc
    rw [decide_eq_true_eq]
    rintro rfl
    exact h (List.mem_reverse.mp hc)
  rw [keyFile, htoList, List.takeWhile_append_of_pos hall]
  simp

theorem keyFile_hookKey {path event file : String} (hf : file ∈ intentHookFiles) :
    keyFile (hookKey path event file) = file := by
  refine keyFile_append ?_
  simp only [intentHookFiles, List.mem_cons, List.not_mem_nil, or_false] at hf
  rcases hf with rfl | rfl <;> decide

theorem hookKey_ne_unparsable {path path' event file : String} (hf : file ∈ intentHookFiles) :
    hookKey path event file ≠ path' ++ ":" ++ unparsable := by
  intro h
  have hfile := congrArg keyFile h
  rw [keyFile_hookKey hf, keyFile_append (by decide)] at hfile
  subst hfile
  revert hf
  decide

theorem takeWhile_path {path rest : String} (hp : path ∈ settingsPaths) :
    (path ++ ":" ++ rest).toList.takeWhile (· ≠ ':') = path.toList := by
  have hall : path.toList.all (fun c => decide (c ≠ ':')) = true := by
    simp only [settingsPaths, List.mem_cons, List.not_mem_nil, or_false] at hp
    rcases hp with rfl | rfl <;> rfl
  have htoList : (path ++ ":" ++ rest).toList = path.toList ++ ':' :: rest.toList := by simp
  rw [htoList, List.takeWhile_append_of_pos (List.all_eq_true.mp hall)]
  simp

theorem hookKey_inj {path path' event event' file file' : String} (hp : path ∈ settingsPaths)
    (hp' : path' ∈ settingsPaths) (hf : file ∈ intentHookFiles) (hf' : file' ∈ intentHookFiles)
    (h : hookKey path event file = hookKey path' event' file') :
    path = path' ∧ event = event' ∧ file = file' := by
  have hfile : file = file' := by
    have := congrArg keyFile h
    rwa [keyFile_hookKey hf, keyFile_hookKey hf'] at this
  have hkey (p e f : String) : hookKey p e f = p ++ ":" ++ (e ++ ":" ++ f) := by
    simp only [hookKey, String.append_assoc]
  have hpath : path = path' := by
    rw [hkey, hkey] at h
    have := congrArg (fun s : String => s.toList.takeWhile (· ≠ ':')) h
    simp only [takeWhile_path hp, takeWhile_path hp'] at this
    exact String.toList_inj.mp this
  subst hfile hpath
  refine ⟨rfl, ?_, rfl⟩
  have := congrArg String.toList h
  simp only [hookKey, String.toList_append, List.append_cancel_right_eq,
    List.append_cancel_left_eq] at this
  exact String.toList_inj.mp this

/-! ## Dictionaries -/

theorem lookup_ofPairs_of_agree {ν : Type} {pairs : List (String × ν)} {k : String} {v : ν}
    (hmem : (k, v) ∈ pairs) (hagree : ∀ w, (k, w) ∈ pairs → w = v) :
    Dict.lookup (Dict.ofPairs pairs) k = some v := by
  obtain ⟨w, hw⟩ := Dict.lookup_ofPairs_isSome hmem
  rw [hw, hagree w (Dict.mem_of_lookup_ofPairs hw)]

theorem missingOrAltered_eq_nil {base candidate : Dict String (List Char)} {label : String}
    (h : missingOrAltered base candidate label = []) {k : String} {v : List Char}
    (hv : Dict.lookup base k = some v) : Dict.lookup candidate k = some v := by
  rw [missingOrAltered, List.map_eq_nil_iff, List.filter_eq_nil_iff] at h
  have := h (k, v) ((List.mem_insertionSort _).mpr (Dict.mem_of_lookup hv))
  simpa using this

section

variable {lib : Stdlib} {load : Loaders} {read : BlobReader} {path event file : String}

theorem mem_fileRegistrations {document : Json} {key : String} {text : List Char} :
    (key, text) ∈ fileRegistrations lib path document ↔
      ∃ event entries entry file, (event, entries) ∈ hookEvents document ∧
        entry ∈ eventEntries entries ∧ registrationText lib entry = text ∧
        file ∈ intentHookFiles ∧ contains file text = true ∧ key = hookKey path event file := by
  simp only [fileRegistrations, List.mem_flatMap, Prod.exists, namedHooks, List.mem_map,
    List.mem_filter, Prod.mk.injEq]
  constructor
  · rintro ⟨event, entries, hevent, entry, hentry, file, ⟨hfile, hnamed⟩, rfl, rfl⟩
    exact ⟨event, entries, entry, file, hevent, hentry, rfl, hfile, hnamed, rfl⟩
  · rintro ⟨event, entries, entry, file, hevent, hentry, rfl, hfile, hnamed, rfl⟩
    exact ⟨event, entries, hevent, entry, hentry, file, ⟨hfile, hnamed⟩, rfl, rfl⟩

theorem settingsHookSignatures_ok {signatures : Dict String (List Char)}
    (h : settingsHookSignatures lib read = .ok signatures) :
    ∃ pairs, signatures = Dict.ofPairs pairs ∧
      ∀ path ∈ settingsPaths, ∀ event, ∀ file ∈ intentHookFiles, ∀ text,
        (hookKey path event file, text) ∈ pairs ↔
          Registered lib read path event text ∧ contains file text = true := by
  simp only [settingsHookSignatures, Except.bind_eq_ok, Except.pure_eq_ok] at h
  obtain ⟨lists, hlists, rfl⟩ := h
  refine ⟨lists.flatten, rfl, fun path hpath event file hfile text => ?_⟩
  constructor
  · intro hmem
    obtain ⟨list, hlist, hpair⟩ := List.mem_flatten.mp hmem
    obtain ⟨path', hpath', hread⟩ := Except.exists_of_mem_mapM hlists list hlist
    simp only [settingsRegistrations, Except.bind_eq_ok] at hread
    obtain ⟨found, hfound, hread⟩ := hread
    match found, hread with
    | none, hread =>
        rw [Except.pure_eq_ok] at hread
        subst hread
        cases hpair
    | some none, hread =>
        rw [Except.pure_eq_ok] at hread
        subst hread
        rw [List.mem_singleton, Prod.mk.injEq] at hpair
        exact absurd hpair.1 (hookKey_ne_unparsable hfile)
    | some (some document), hread =>
        rw [Except.pure_eq_ok] at hread
        subst hread
        obtain ⟨event', entries, entry, file', hevent, hentry, htext, hfile', hnamed, hkey⟩ :=
          mem_fileRegistrations.mp hpair
        obtain ⟨rfl, rfl, rfl⟩ := hookKey_inj hpath hpath' hfile hfile' hkey
        exact ⟨⟨document, entries, entry, hfound, hevent, hentry, htext⟩, hnamed⟩
  · rintro ⟨⟨document, entries, entry, hfound, hevent, hentry, htext⟩, hnamed⟩
    obtain ⟨list, hlist, hread⟩ := Except.of_mem_mapM hlists path hpath
    refine List.mem_flatten.mpr ⟨list, hlist, ?_⟩
    simp only [settingsRegistrations, hfound, Except.bind_eq_ok] at hread
    obtain ⟨_, heq, hread⟩ := hread
    obtain rfl := Except.ok.inj heq
    rw [Except.pure_eq_ok] at hread
    subst hread
    exact mem_fileRegistrations.mpr
      ⟨event, entries, entry, file, hevent, hentry, htext, hfile, hnamed, rfl⟩

theorem mem_commandTimeouts {hook : Json} {key : String} {timeout : Int} :
    (key, timeout) ∈ commandTimeouts lib path event hook ↔
      ∃ file ∈ intentHookFiles, hookTimeout hook = some timeout ∧
        contains file (hookCommand lib hook).toList = true ∧ key = hookKey path event file := by
  unfold commandTimeouts
  cases hookTimeout hook with
  | none => simp
  | some t =>
      simp only [List.mem_map, List.mem_filter, Prod.mk.injEq, Option.some.injEq]
      constructor
      · rintro ⟨file, ⟨hfile, hnamed⟩, rfl, rfl⟩
        exact ⟨file, hfile, rfl, hnamed, rfl⟩
      · rintro ⟨file, hfile, rfl, hnamed, rfl⟩
        exact ⟨file, ⟨hfile, hnamed⟩, rfl, rfl⟩

theorem intentTimeouts_ok {timeouts : Dict String Int}
    (h : intentTimeouts lib read = .ok timeouts) :
    ∃ pairs, timeouts = Dict.ofPairs pairs ∧
      ∀ path ∈ settingsPaths, ∀ event, ∀ file ∈ intentHookFiles, ∀ timeout,
        (hookKey path event file, timeout) ∈ pairs ↔
          ∃ hook, HookAt lib read path event file hook ∧ hookTimeout hook = some timeout := by
  simp only [intentTimeouts, Except.bind_eq_ok, Except.pure_eq_ok] at h
  obtain ⟨lists, hlists, rfl⟩ := h
  refine ⟨lists.flatten, rfl, fun path hpath event file hfile timeout => ?_⟩
  constructor
  · intro hmem
    obtain ⟨list, hlist, hpair⟩ := List.mem_flatten.mp hmem
    obtain ⟨path', hpath', hread⟩ := Except.exists_of_mem_mapM hlists list hlist
    simp only [settingsTimeouts, Except.bind_eq_ok] at hread
    obtain ⟨found, hfound, hread⟩ := hread
    match found, hread with
    | none, hread | some none, hread =>
        rw [Except.pure_eq_ok] at hread
        subst hread
        cases hpair
    | some (some document), hread =>
        simp only [Except.bind_eq_ok, Except.pure_eq_ok] at hread
        obtain ⟨hooks, hhooks, rfl⟩ := hread
        obtain ⟨⟨event', hook⟩, hhook, hpair⟩ := List.mem_flatMap.mp hpair
        obtain ⟨file', hfile', htimeout, hnamed, hkey⟩ := mem_commandTimeouts.mp hpair
        obtain ⟨rfl, rfl, rfl⟩ := hookKey_inj hpath hpath' hfile hfile' hkey
        exact ⟨hook, ⟨document, hooks, hfound, hhooks, hhook, hnamed⟩, htimeout⟩
  · rintro ⟨hook, ⟨document, hooks, hfound, hhooks, hhook, hnamed⟩, htimeout⟩
    obtain ⟨list, hlist, hread⟩ := Except.of_mem_mapM hlists path hpath
    refine List.mem_flatten.mpr ⟨list, hlist, ?_⟩
    simp only [settingsTimeouts, hfound, Except.bind_eq_ok] at hread
    obtain ⟨_, heq, hread⟩ := hread
    obtain rfl := Except.ok.inj heq
    simp only [hhooks, Except.bind_eq_ok, Except.pure_eq_ok] at hread
    obtain ⟨_, heq, rfl⟩ := hread
    obtain rfl := Except.ok.inj heq
    exact List.mem_flatMap.mpr ⟨(event, hook), hhook,
      mem_commandTimeouts.mpr ⟨file, hfile, htimeout, hnamed, rfl⟩⟩

theorem timeoutFindings_eq_nil {floor : Dict String Int} {base candidate : BlobReader}
    (h : timeoutFindings lib floor base candidate = .ok []) :
    ∃ before after, intentTimeouts lib base = .ok before ∧
      intentTimeouts lib candidate = .ok after ∧
      ∀ key timeout least, Dict.lookup after key = some timeout →
        Dict.lookup floor (keyFile key) = some least → timeout < least →
        Dict.lookup before key = some timeout := by
  simp only [timeoutFindings, Except.bind_eq_ok, Except.pure_eq_ok, List.map_eq_nil_iff,
    List.filter_eq_nil_iff] at h
  obtain ⟨before, hbefore, after, hafter, hnone⟩ := h
  refine ⟨before, after, hbefore, hafter, fun key timeout least hlookup hleast hlt => ?_⟩
  have := hnone (key, timeout) ((List.mem_insertionSort _).mpr (Dict.mem_of_lookup hlookup))
  simp only [isLowered, hleast, Option.getD_some, decide_eq_true_eq, not_and, not_lt] at this
  by_contra hne
  exact absurd (this fun heq => hne heq.symm) (not_le.mpr hlt)

theorem mem_preCommitPairs {document : Json} {id : String} {text : List Char} :
    (id, text) ∈ ((preCommitHooks document).filterMap fun hook =>
        (intentHookId hook).map fun id => (id, dumps lib spaced hook)) ↔
      ∃ hook ∈ preCommitHooks document, intentHookId hook = some id ∧
        dumps lib spaced hook = text := by
  simp only [List.mem_filterMap, Option.map_eq_some_iff, Prod.mk.injEq]
  constructor
  · rintro ⟨hook, hhook, id', hid, rfl, rfl⟩
    exact ⟨hook, hhook, hid, rfl⟩
  · rintro ⟨hook, hhook, hid, rfl⟩
    exact ⟨hook, hhook, id, hid, rfl, rfl⟩

theorem intentHookId_ne_unparsable {hook : Json} {id : String} (h : intentHookId hook = some id) :
    id ≠ unparsable := by
  rintro rfl
  unfold intentHookId at h
  split at h
  · split at h
    · next hlead =>
      obtain rfl := Option.some.inj h
      exact absurd hlead (by decide)
    · cases h
  · cases h

theorem PreCommitHook.lookup {id : String} {text : List Char}
    (h : PreCommitHook lib load read id text)
    (hagree : ∀ text', PreCommitHook lib load read id text' → text' = text) :
    Dict.lookup (preCommitIntentHooks lib load read) id = some text := by
  unfold preCommitIntentHooks
  have hparsed : safeYaml load (read preCommitConfigPath) ≠ .str unparsable := by
    intro heq
    obtain ⟨hook, hhook, _⟩ := h
    rw [heq] at hhook
    cases hhook
  simp only [hparsed, if_false]
  exact lookup_ofPairs_of_agree (mem_preCommitPairs.mpr h)
    fun text' hmem => hagree text' (mem_preCommitPairs.mp hmem)

theorem PreCommitHook.of_lookup {id : String} {text : List Char} (hid : id ≠ unparsable)
    (h : Dict.lookup (preCommitIntentHooks lib load read) id = some text) :
    PreCommitHook lib load read id text := by
  unfold preCommitIntentHooks at h
  by_cases hdoc : safeYaml load (read preCommitConfigPath) = .str unparsable
  · simp only [hdoc, if_true, Dict.lookup_cons, Ne.symm hid, if_false, Dict.lookup_nil] at h
    cases h
  · simp only [hdoc, if_false] at h
    exact mem_preCommitPairs.mp (Dict.mem_of_lookup_ofPairs h)

end

/-! ## The comparison -/

section

variable {lib : Stdlib} {load : Loaders} {floor : Dict String Int} {base candidate : BlobReader}

theorem controlPlaneFindings_eq_nil {removedOrRenamed : List String}
    (h : controlPlaneFindings lib load floor base candidate removedOrRenamed = .ok []) :
    timeoutFindings lib floor base candidate = .ok [] ∧
    (∃ baseHooks candidateHooks, settingsHookSignatures lib base = .ok baseHooks ∧
      settingsHookSignatures lib candidate = .ok candidateHooks ∧
      missingOrAltered baseHooks candidateHooks "hook" = []) ∧
    missingOrAltered (preCommitIntentHooks lib load base) (preCommitIntentHooks lib load candidate)
      "pre-commit hook" = [] := by
  simp only [controlPlaneFindings, Except.bind_eq_ok, Except.pure_eq_ok,
    List.append_eq_nil_iff] at h
  obtain ⟨timeouts, htimeouts, baseHooks, hbase, candidateHooks, hcandidate,
    ⟨⟨_, rfl⟩, hhooks⟩, hpreCommit⟩ := h
  exact ⟨htimeouts, ⟨baseHooks, candidateHooks, hbase, hcandidate, hhooks⟩, hpreCommit⟩

end

/-! ## Two registrations of one hook -/

/-- An entry that registers the write guard for one tool. -/
def guardEntry (matcher : String) : Json := .obj
  [("matcher", .str matcher), ("hooks", .arr [.obj [("command", .str "pre-tool-intent-guard.sh")]])]

def guardEntryText (matcher : String) : String :=
  "\x7b\"matcher\":\"" ++ matcher ++
    "\",\"hooks\":[\x7b\"command\":\"pre-tool-intent-guard.sh\"\x7d]\x7d"

def settingsOf (entries : List Json) : Json :=
  .obj [("hooks", .obj [("PreToolUse", .arr entries)])]

/-- A project whose only control-plane file is its settings file. -/
def settingsOnly (entries : String) : BlobReader := fun path =>
  if path = ".claude/settings.json" then
    some (.text ("\x7b\"hooks\":\x7b\"PreToolUse\":[" ++ entries ++ "]\x7d\x7d"))
  else none

def editOnly : BlobReader := settingsOnly (guardEntryText "Edit")

def writeAndEdit : BlobReader :=
  settingsOnly (guardEntryText "Write" ++ "," ++ guardEntryText "Edit")

/-- Loaders of a project without YAML files. -/
def noYaml : Loaders where
  yaml _ := none
  decodeReplace _ := ""
  contract _ := none

theorem read_editOnly : readSettings sampleStdlib editOnly ".claude/settings.json" =
    .ok (some (some (settingsOf [guardEntry "Edit"]))) :=
  Except.ok_of_toOption (by decide +kernel)

theorem read_writeAndEdit : readSettings sampleStdlib writeAndEdit ".claude/settings.json" =
    .ok (some (some (settingsOf [guardEntry "Write", guardEntry "Edit"]))) :=
  Except.ok_of_toOption (by decide +kernel)

theorem document_unique {entries path : String} {document document' : Json}
    (h : readSettings sampleStdlib (settingsOnly entries) ".claude/settings.json" =
      .ok (some (some document)))
    (h' : readSettings sampleStdlib (settingsOnly entries) path = .ok (some (some document'))) :
    document' = document := by
  by_cases hpath : path = ".claude/settings.json"
  · subst hpath
    rw [h] at h'
    simpa using h'.symm
  · have hnone : readSettings sampleStdlib (settingsOnly entries) path = .ok none := by
      simp only [readSettings, settingsOnly, hpath, if_false]
      rfl
    rw [hnone] at h'
    cases h'

theorem registered_settingsOf {entries path event : String} {items : List Json} {text : List Char}
    (hread : readSettings sampleStdlib (settingsOnly entries) ".claude/settings.json" =
      .ok (some (some (settingsOf items))))
    (h : Registered sampleStdlib (settingsOnly entries) path event text) :
    ∃ entry ∈ items, registrationText sampleStdlib entry = text := by
  obtain ⟨document, list, entry, hdocument, hevent, hentry, htext⟩ := h
  obtain rfl := document_unique hread hdocument
  obtain ⟨rfl, rfl⟩ : event = "PreToolUse" ∧ list = .arr items := by
    simpa [settingsOf, hookEvents, dictGet, Dict.lookup_cons] using hevent
  exact ⟨entry, hentry, htext⟩

theorem hookAt_settingsOf {entries path event file : String} {items : List Json} {hook : Json}
    (hread : readSettings sampleStdlib (settingsOnly entries) ".claude/settings.json" =
      .ok (some (some (settingsOf items))))
    (h : HookAt sampleStdlib (settingsOnly entries) path event file hook)
    (hitems : ∀ hooks, fileHooks (settingsOf items) = .ok hooks →
      ∀ m ∈ hooks, m.2 = .obj [("command", .str "pre-tool-intent-guard.sh")]) :
    hook = .obj [("command", .str "pre-tool-intent-guard.sh")] := by
  obtain ⟨document, hooks, hdocument, hhooks, hmem, _⟩ := h
  obtain rfl := document_unique hread hdocument
  exact hitems hooks hhooks _ hmem

theorem oneEach_sample : OneEach sampleStdlib noYaml editOnly writeAndEdit := by
  have hcommand (hook : Json) (h : hook = .obj [("command", .str "pre-tool-intent-guard.sh")]) :
      hookTimeout hook = none := by
    rw [h]
    rfl
  have hbase {path event file : String} {hook : Json}
      (h : HookAt sampleStdlib editOnly path event file hook) : hookTimeout hook = none := by
    refine hcommand hook (hookAt_settingsOf read_editOnly h fun hooks hhooks => ?_)
    obtain rfl := Except.ok.inj hhooks
    decide
  have hcandidate {path event file : String} {hook : Json}
      (h : HookAt sampleStdlib writeAndEdit path event file hook) : hookTimeout hook = none := by
    refine hcommand hook (hookAt_settingsOf read_writeAndEdit h fun hooks hhooks => ?_)
    obtain rfl := Except.ok.inj hhooks
    decide
  refine ⟨?_, ?_, ?_, ?_⟩
  · intro path _ event file _ text text' h h' _ _
    obtain ⟨entry, hentry, rfl⟩ := registered_settingsOf read_editOnly h
    obtain ⟨entry', hentry', rfl⟩ := registered_settingsOf read_editOnly h'
    rw [List.mem_singleton.mp hentry, List.mem_singleton.mp hentry']
  · rintro id text text' ⟨hook, hhook, _⟩
    cases hhook
  · intro path _ event file _ hook hook' h h'
    rw [effectiveTimeout, effectiveTimeout, hbase h, hbase h']
  · intro path _ event file _ hook hook' t t' h _ ht
    rw [hcandidate h] at ht
    cases ht

end TrwMcp.Intent

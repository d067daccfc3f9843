import TrwMcp.Pins.Store
import TrwMcp.Lib.Except

/-!
# Whose pin a transfer takes

The transfer looks at one entry: the first that names the run. The owner of any other entry is not
asked, and the entry is left. So it takes a run from its only owner, and is wrong about every store
with another key for the run.
-/

namespace TrwMcp.Pins

open Handoff Intent Lib

section

variable {host : Host}

theorem strictEntry_ok {m : String × Json} {e : String × Entry} (h : strictEntry m = .ok e) :
    e.1 = m.1 ∧ m.2 = .obj e.2 := by
  unfold strictEntry at h
  split at h
  · cases h
  · split at h
    · next entry hvalue =>
        split at h
        · obtain rfl := Except.ok.inj h
          exact ⟨rfl, hvalue⟩
        · cases h
    · cases h

theorem loadStrict_ok {file : PinFile} {store : List (String × Entry)}
    (h : loadPinStoreStrictLocked file = .ok store) :
    file.store.items = store.map fun m => (m.1, .obj m.2) := by
  cases file with
  | missing =>
      obtain rfl := Except.ok.inj h
      rfl
  | unreadable => cases h
  | notMapping => cases h
  | pins found =>
      have hall := Except.forall₂_of_mapM h
      change found.items = _
      clear h
      generalize found.items = items at hall ⊢
      induction hall with
      | nil => rfl
      | cons hm _ ih =>
          obtain ⟨hkey, hvalue⟩ := strictEntry_ok hm
          rw [List.map_cons, ← ih, hkey, ← hvalue]

theorem finishTransfer_ok {args : TransferArgs} {store : PinMap}
    {previous : Option (String × Entry)} {age : Option Int} {wasLive : Bool}
    {file file' : PinFile} {result : Transferred}
    (h : finishTransfer host args store previous age wasLive file = (.ok result, file')) :
    result.record.get "run_path" = some (.str (host.resolve args.runPath)) ∧
      file' = ((keptStore args.callerPinKey previous store).set
        args.callerPinKey result.record).written := by
  obtain ⟨_, _, hupdate, hpure⟩ := Eff.bind_eq_ok.mp h
  rw [Eff.update_eq_ok] at hupdate
  obtain ⟨rfl, rfl⟩ := Eff.pure_eq_ok.mp hpure
  exact ⟨rfl, hupdate.symm⟩

theorem transfer_ok {args : TransferArgs} {file file' : PinFile} {result : Transferred}
    (h : transferPinEntry host args file = (.ok result, file')) :
    ∃ store, file.store.items = store.map (fun m => (m.1, .obj m.2)) ∧
      result.record.get "run_path" = some (.str (host.resolve args.runPath)) ∧
      file' = ((keptStore args.callerPinKey
        (previousEntry host (host.resolve args.runPath) store) file.store).set
          args.callerPinKey result.record).written ∧
      ∀ key entry, previousEntry host (host.resolve args.runPath) store = some (key, entry) →
        key ≠ args.callerPinKey → args.force = false →
          isLive host args.pinTtlHours entry = false := by
  unfold transferPinEntry at h
  rw [Eff.read_bind] at h
  cases hload : loadPinStoreStrictLocked file with
  | error e =>
      rw [hload] at h
      exact absurd h Eff.raise_ne_ok
  | ok store =>
      rw [hload] at h
      simp only at h
      refine ⟨store, loadStrict_ok hload, ?_⟩
      cases hprevious : previousEntry host (host.resolve args.runPath) store with
      | none =>
          rw [hprevious] at h
          obtain ⟨hpath, hfile⟩ := finishTransfer_ok h
          exact ⟨hpath, hfile, by simp⟩
      | some m =>
          obtain ⟨key, entry⟩ := m
          rw [hprevious] at h
          simp only at h
          cases hbeat : strictHeartbeat host entry with
          | none =>
              rw [hbeat] at h
              exact absurd h Eff.raise_ne_ok
          | some beat =>
              rw [hbeat] at h
              simp only at h
              by_cases hheld : isLive host args.pinTtlHours entry = true ∧
                  key ≠ args.callerPinKey ∧ (!args.force) = true
              · rw [if_pos hheld] at h
                exact absurd h Eff.raise_ne_ok
              · rw [if_neg hheld] at h
                obtain ⟨hpath, hfile⟩ := finishTransfer_ok h
                refine ⟨hpath, hfile, ?_⟩
                rintro _ _ ⟨⟩ hkey hforce
                by_contra hlive
                exact hheld ⟨by simpa using hlive, hkey, by simp [hforce]⟩

/-! ## The two halves of the promise -/

/-- A transfer without force found no live pin of another key. -/
def TakesFromNoLiveOwner (host : Host) (args : TransferArgs) (file : PinFile) : Prop :=
  args.force = false → ∀ key entry, (key, .obj entry) ∈ file.store.items →
    key ≠ args.callerPinKey → namesRun host (host.resolve args.runPath) (.obj entry) = true →
      isLive host args.pinTtlHours entry = false

/-- The caller's key, and no other, names the run. -/
def SoleHolder (host : Host) (args : TransferArgs) (file : PinFile) : Prop :=
  (∃ value, (args.callerPinKey, value) ∈ file.store.items ∧
    namesRun host (host.resolve args.runPath) value = true) ∧
  ∀ key value, (key, value) ∈ file.store.items →
    namesRun host (host.resolve args.runPath) value = true → key = args.callerPinKey

/-- The keys that name the run, in the order of the file. -/
def holders (host : Host) (args : TransferArgs) (file : PinFile) : List String :=
  (file.store.items.filter fun m => namesRun host (host.resolve args.runPath) m.2).map (·.1)

/-- The condition: besides the first key that names the run, only the caller's does. -/
def OneHolder (host : Host) (args : TransferArgs) (file : PinFile) : Prop :=
  ∀ key ∈ (holders host args file).tail, key = args.callerPinKey

theorem previousEntry_key {args : TransferArgs} {file : PinFile} {store : List (String × Entry)}
    (h : file.store.items = store.map fun m => (m.1, .obj m.2)) :
    (previousEntry host (host.resolve args.runPath) store).map (·.1) =
      (holders host args file).head? := by
  rw [holders, h, List.filter_map, List.map_map, List.head?_map, previousEntry,
    ← List.head?_filter]
  rfl

theorem holders_nodup (args : TransferArgs) (file : PinFile) : (holders host args file).Nodup :=
  (List.filter_sublist.map _).nodup file.store.nodup

theorem mem_holders {args : TransferArgs} {file : PinFile} {key : String} :
    key ∈ holders host args file ↔ ∃ value, (key, value) ∈ file.store.items ∧
      namesRun host (host.resolve args.runPath) value = true := by
  simp [holders]

theorem mem_written {caller : String} {previous : Option (String × Entry)} {store : PinMap}
    {record : Entry} {key : String} {value : Json} (hkey : key ≠ caller) :
    (key, value) ∈ (((keptStore caller previous store).set caller record).written).store.items ↔
      (key, value) ∈ store.items ∧ previous.map (·.1) ≠ some key := by
  have hset : ∀ pins : PinMap, (key, value) ∈ (pins.set caller record).written.store.items ↔
      (key, value) ∈ pins.items := by
    intro pins
    have hsorted : (key, value) ∈ (pins.set caller record).written.store.items ↔
        (key, value) ∈ Dict.set pins.items caller (.obj record) :=
      List.mem_insertionSort _
    rw [hsorted]
    have hnodup := Dict.keys_set_nodup pins.nodup caller (.obj record)
    constructor
    · intro h
      have hlookup := Dict.lookup_of_mem hnodup h
      rw [Dict.lookup_set_ne _ hkey] at hlookup
      exact Dict.mem_of_lookup hlookup
    · intro h
      refine Dict.mem_of_lookup ?_
      rw [Dict.lookup_set_ne _ hkey]
      exact Dict.lookup_of_mem pins.nodup h
  rw [hset]
  cases previous with
  | none => simp [keptStore]
  | some m =>
      obtain ⟨first, entry⟩ := m
      by_cases hfirst : first = caller
      · subst hfirst
        simp [keptStore, Ne.symm hkey]
      · simp only [keptStore, ne_eq, hfirst, not_false_eq_true, if_true, PinMap.pop,
          PinMap.filter, List.mem_filter, Option.map_some, Option.some.injEq]
        refine and_congr_right fun _ => ?_
        rw [decide_eq_true_eq]
        exact ⟨fun h h' => h h'.symm, fun h h' => h h'.symm⟩

/-- A transfer that returned took the run from no live owner and left no other holder exactly when
it found at most one holder besides the caller. -/
theorem transfer_fair_iff {args : TransferArgs} {file file' : PinFile} {result : Transferred}
    (hresolve : ∀ path, host.resolve (host.resolve path) = host.resolve path)
    (hpath : host.resolve args.runPath ≠ "")
    (h : transferPinEntry host args file = (.ok result, file')) :
    (TakesFromNoLiveOwner host args file ∧ SoleHolder host args file') ↔
      OneHolder host args file := by
  obtain ⟨store, hstore, hrecord, rfl, hlive⟩ := transfer_ok h
  have hkey := @previousEntry_key host args file store hstore
  have hother : ∀ key value, key ≠ args.callerPinKey →
      ((key, value) ∈ (((keptStore args.callerPinKey
        (previousEntry host (host.resolve args.runPath) store) file.store).set
          args.callerPinKey result.record).written).store.items ↔
        (key, value) ∈ file.store.items ∧ (holders host args file).head? ≠ some key) := by
    intro key value hne
    rw [mem_written hne, hkey]
  have hnodup := @holders_nodup host args file
  constructor
  · rintro ⟨-, -, hsole⟩ key hmem
    by_contra hne
    obtain ⟨value, hvalue, hnames⟩ := mem_holders.mp (List.mem_of_mem_tail hmem)
    refine hne (hsole key value ((hother key value hne).mpr ⟨hvalue, ?_⟩) hnames)
    intro hhead
    cases hholders : holders host args file with
    | nil => simp [hholders] at hmem
    | cons first rest =>
        rw [hholders] at hhead hmem hnodup
        obtain rfl : first = key := by simpa using hhead
        exact (List.nodup_cons.mp hnodup).1 hmem
  · intro hone
    have hfirst : ∀ key value, (key, value) ∈ file.store.items → key ≠ args.callerPinKey →
        namesRun host (host.resolve args.runPath) value = true →
          (holders host args file).head? = some key := by
      intro key value hvalue hne hnames
      have hmem := mem_holders.mpr ⟨value, hvalue, hnames⟩
      cases hholders : holders host args file with
      | nil => simp [hholders] at hmem
      | cons first rest =>
          rw [hholders] at hmem
          rcases List.mem_cons.mp hmem with rfl | hrest
          · rfl
          · refine absurd (hone key ?_) hne
            rw [hholders]
            exact hrest
    refine ⟨fun hforce key entry hentry hne hnames => ?_, ⟨.obj result.record, ?_, ?_⟩, ?_⟩
    · have hhead := hfirst key _ hentry hne hnames
      rw [← hkey] at hhead
      obtain ⟨⟨key', entry'⟩, hprevious, rfl⟩ := Option.map_eq_some_iff.mp hhead
      have hsame : entry' = entry := by
        have hin : (key', Json.obj entry') ∈ file.store.items := by
          rw [hstore]
          exact List.mem_map.mpr ⟨_, List.mem_of_find?_eq_some hprevious, rfl⟩
        have hlookup := Dict.lookup_of_mem file.store.nodup hin
        rw [Dict.lookup_of_mem file.store.nodup hentry] at hlookup
        simpa using hlookup.symm
      exact hsame ▸ hlive key' entry' hprevious hne hforce
    · refine (List.mem_insertionSort _).mpr (Dict.mem_of_lookup ?_)
      exact Dict.lookup_set_self _ _ _
    · have hrun : runPathOf (.obj result.record) = some (host.resolve args.runPath) := by
        simp [runPathOf, hrecord, asText, hpath]
      simp [namesRun, hrun, hresolve]
    · intro key value hmem hnames
      by_contra hne
      obtain ⟨hvalue, hhead⟩ := (hother key value hne).mp hmem
      exact hhead (hfirst key value hvalue hne hnames)

end

/-! ## Runs -/

/-- One transaction, each on the machine as it is then. -/
inductive PinCall where
  | upsert (host : Host) (pinKey runPath : String) (clientHint : Json)
  | remove (host : Host) (pinKey : String)
  | prune (host : Host)
  | transfer (host : Host) (args : TransferArgs)

/-- The file after a transaction. -/
def PinCall.run (file : PinFile) : PinCall → PinFile
  | .upsert host pinKey runPath clientHint => upsertPinEntry host pinKey runPath clientHint file
  | .remove host pinKey => removePinEntry host pinKey file
  | .prune host => prunePinStoreOrphans host file
  | .transfer host args => (transferPinEntry host args file).2

def PinStep (file : PinFile) (call : PinCall) (file' : PinFile) : Prop := file' = call.run file

/-- What `Path.resolve` does: it gives an absolute path, and leaves it. -/
structure Host.Resolves (host : Host) : Prop where
  idem : ∀ path, host.resolve (host.resolve path) = host.resolve path
  absolute : ∀ path, host.resolve path ≠ ""

/-- Of every transfer of a run that returned: it took the run from no live owner and left the caller
its only holder, exactly when it found at most one holder besides the caller. -/
theorem transfers_fair {file₀ file : PinFile} {calls : List PinCall}
    (hrun : Run PinStep file₀ calls file) {before after : List PinCall} {host : Host}
    {args : TransferArgs} (hcalls : calls = before ++ .transfer host args :: after)
    (hhost : host.Resolves) :
    ∃ s, Run PinStep file₀ before s ∧ ∀ result s',
      transferPinEntry host args s = (.ok result, s') →
        ((TakesFromNoLiveOwner host args s ∧ SoleHolder host args s') ↔
          OneHolder host args s) := by
  subst hcalls
  obtain ⟨s, _, hbefore, -, -⟩ := hrun.split
  exact ⟨s, hbefore, fun result s' h => transfer_fair_iff hhost.idem (hhost.absolute _) h⟩

/-! ### Two keys for one run -/

/-- Process 2 is the only one alive. -/
def sampleHost : Host where
  resolve path := if path = "" then "/" else path
  pathExists _ := true
  fromisoformat _ := some ⟨0, true⟩
  startTime _ := none
  alive pid := pid = 2
  pid := 3
  ppid := 4
  now := 3600000000
  nowText := "2026-07-24T01:00:00.000000Z"
  pinTtlHours := 24

theorem sampleHost_resolves : sampleHost.Resolves where
  idem path := by
    change (if (if path = "" then "/" else path) = "" then "/" else if path = "" then "/" else path) =
      if path = "" then "/" else path
    split <;> simp_all
  absolute path := by
    change (if path = "" then "/" else path) ≠ ""
    split <;> simp_all

def sampleEntry (pid : Int) : Json :=
  .obj [("run_path", .str "/runs/r"), ("last_heartbeat_ts", .str "2026-07-24T00:00:00Z"),
    ("pid", .int pid)]

def sampleArgs : TransferArgs := ⟨"c", "/runs/r", false, 24⟩

/-- The run of one key, whose owner is gone. -/
def staleFile : PinFile := .pins ⟨[("a", sampleEntry 1)], by decide⟩

theorem transfers_fair_sample : ∃ s, Run PinStep staleFile [] s ∧ ∀ result s',
    transferPinEntry sampleHost sampleArgs s = (.ok result, s') →
      ((TakesFromNoLiveOwner sampleHost sampleArgs s ∧ SoleHolder sampleHost sampleArgs s') ↔
        OneHolder sampleHost sampleArgs s) :=
  @transfers_fair staleFile _ [.transfer sampleHost sampleArgs] (Run.single rfl) [] [] sampleHost
    sampleArgs rfl sampleHost_resolves

/-- The run of two keys, the second of a live process. -/
def twoKeyFile : PinFile := .pins ⟨[("a", sampleEntry 1), ("b", sampleEntry 2)], by decide⟩

/-- The transfer returns, though the second key is live, and leaves it. -/
theorem second_holder_ignored :
    (transferPinEntry sampleHost sampleArgs twoKeyFile).1.toOption.isSome = true ∧
      ¬ TakesFromNoLiveOwner sampleHost sampleArgs twoKeyFile ∧
      ¬ SoleHolder sampleHost sampleArgs (transferPinEntry sampleHost sampleArgs twoKeyFile).2 := by
  refine ⟨by decide +kernel, fun h => ?_, fun h => ?_⟩
  · have hlive := h rfl "b" _ (List.mem_cons_of_mem _ (List.mem_singleton.mpr rfl)) (by decide)
      (by decide)
    exact absurd hlive (by decide +kernel)
  · have hleft : ((transferPinEntry sampleHost sampleArgs twoKeyFile).2.store.items.any fun m =>
        decide (m.1 = "b") && namesRun sampleHost "/runs/r" m.2) = true := by
      decide +kernel
    obtain ⟨⟨key, value⟩, hmem, hb⟩ := List.any_eq_true.mp hleft
    simp only [Bool.and_eq_true, decide_eq_true_eq] at hb
    have hkey := h.2 key value hmem hb.2
    rw [hb.1] at hkey
    exact absurd hkey (by decide)

end TrwMcp.Pins

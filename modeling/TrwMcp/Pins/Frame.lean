import TrwMcp.Pins.Transfer

/-!
# What a transaction of the pin store leaves alone

Every transaction writes the whole file, so it may lose what it did not read. The strict read of a
transfer and the reads of a removal and a prune end without a write where the file gives no mapping;
the read of an upsert takes such a file for an empty one, and the write then replaces it.
-/

namespace TrwMcp.Pins

open Handoff Intent Lib

def PinCall.host : PinCall → Host
  | .upsert host _ _ _ => host
  | .remove host _ => host
  | .prune host => host
  | .transfer host _ => host

/-- What a transaction publishes, where it writes. -/
def PinCall.publishes (found : PinFile) : PinCall → Option PinFile
  | .upsert host pinKey runPath clientHint =>
      some (upsertPinEntry host pinKey runPath clientHint found)
  | .remove host pinKey =>
      if Dict.has (loadPinStoreUncached host found).items pinKey then
        some (removePinEntry host pinKey found)
      else none
  | .prune host =>
      match found with
      | .pins pins =>
          if pins.items.length ≤ (applyEvictionPasses host pins).items.length then none
          else some (prunePinStoreOrphans host found)
      | _ => none
  | .transfer host args =>
      match transferPinEntry host args found with
      | (.ok _, file) => some file
      | (.error _, _) => none

/-- A transaction, and whether its read of the file and its write fail. -/
structure Access where
  call : PinCall
  readFails : Bool
  writeFails : Bool

/-- The file as a transaction finds it. -/
def Access.found (access : Access) (file : PinFile) : PinFile :=
  match file with
  | .missing => .missing
  | file => if access.readFails then .unreadable else file

/-- The file after a transaction: the write is a rename, so one that fails leaves the file. -/
def Access.run (access : Access) (file : PinFile) : PinFile :=
  if access.writeFails then file else (access.call.publishes (access.found file)).getD file

/-- The file is there, and the read gives no mapping. -/
def Access.Blind (access : Access) (file : PinFile) : Prop :=
  access.found file = .unreadable ∨ access.found file = .notMapping

def PinCall.IsUpsert : PinCall → Prop
  | .upsert _ _ _ _ => True
  | _ => False

/-- The keys a transaction is about: its own and, of a transfer, the one the run was held under. -/
def PinCall.own (file : PinFile) (key : String) : PinCall → Prop
  | .upsert _ pinKey _ _ => key = pinKey
  | .remove _ pinKey => key = pinKey
  | .prune _ => False
  | .transfer host args =>
      key = args.callerPinKey ∨ (holders host args file).head? = some key

section

variable {call : PinCall} {access : Access} {found file file' : PinFile} {key : String}
  {value : Json}

theorem PinMap.mem_written (pins : PinMap) {m : String × Json} :
    m ∈ pins.written.store.items ↔ m ∈ pins.items := List.mem_insertionSort _

theorem PinMap.mem_set (pins : PinMap) {caller : String} {record : Entry} (h : key ≠ caller) :
    (key, value) ∈ (pins.set caller record).written.store.items ↔ (key, value) ∈ pins.items := by
  have hkept := @Pins.mem_written caller none pins record key value h
  simpa [keptStore] using hkept

theorem PinMap.mem_pop (pins : PinMap) {popped : String} (h : key ≠ popped) :
    (key, value) ∈ (pins.pop popped).written.store.items ↔ (key, value) ∈ pins.items := by
  rw [PinMap.mem_written, PinMap.pop, PinMap.filter, List.mem_filter]
  exact and_iff_left (by simpa using h)

theorem mem_load {host : Host} :
    (key, value) ∈ (loadPinStoreUncached host found).items ↔
      (key, value) ∈ found.store.items ∧ survives host value = true := by
  cases found with
  | pins pins => exact List.mem_filter
  | missing => simp [loadPinStoreUncached, PinFile.store]
  | unreadable => simp [loadPinStoreUncached, PinFile.store]
  | notMapping => simp [loadPinStoreUncached, PinFile.store]

theorem transfer_error {host : Host} {args : TransferArgs} {e : StateError}
    (h : transferPinEntry host args file = (.error e, file')) : file' = file := by
  unfold transferPinEntry at h
  rw [Eff.read_bind] at h
  cases hload : loadPinStoreStrictLocked file with
  | error e' =>
      rw [hload] at h
      exact (congrArg Prod.snd h).symm
  | ok store =>
      rw [hload] at h
      simp only at h
      cases hprevious : previousEntry host (host.resolve args.runPath) store with
      | none =>
          rw [hprevious] at h
          cases h
      | some m =>
          obtain ⟨first, entry⟩ := m
          rw [hprevious] at h
          simp only at h
          cases hbeat : strictHeartbeat host entry with
          | none =>
              rw [hbeat] at h
              exact (congrArg Prod.snd h).symm
          | some beat =>
              rw [hbeat] at h
              simp only at h
              split at h
              · exact (congrArg Prod.snd h).symm
              · cases h

theorem PinCall.run_eq : call.run file = (call.publishes file).getD file := by
  cases call with
  | upsert host pinKey runPath clientHint => rfl
  | remove host pinKey =>
      simp only [PinCall.run, PinCall.publishes, removePinEntry]
      split <;> rfl
  | prune host =>
      cases file with
      | pins pins =>
          simp only [PinCall.run, PinCall.publishes, prunePinStoreOrphans]
          split <;> rfl
      | missing => rfl
      | unreadable => rfl
      | notMapping => rfl
  | transfer host args =>
      simp only [PinCall.run, PinCall.publishes]
      cases htransfer : transferPinEntry host args file with
      | mk result file' =>
          cases result with
          | ok done => rfl
          | error e => exact transfer_error htransfer

/-- What a transaction publishes: of the entries it is not about, those it found, and each of them
that the eviction passes keep. -/
theorem PinCall.published (h : call.publishes found = some file') (hown : ¬ call.own found key) :
    ((key, value) ∈ file'.store.items → (key, value) ∈ found.store.items) ∧
      ((key, value) ∈ found.store.items → survives call.host value = true →
        (key, value) ∈ file'.store.items) := by
  cases call with
  | upsert host pinKey runPath clientHint =>
      obtain rfl := Option.some.inj h
      have hset := @PinMap.mem_set key value (loadPinStoreUncached host found) pinKey
        (pinRecord host (host.resolve runPath) ((createdTsOf (Dict.lookup
          (loadPinStoreUncached host found).items pinKey)).getD host.nowText) clientHint) hown
      rw [mem_load] at hset
      exact ⟨fun hmem => (hset.mp hmem).1, fun hmem hlive => hset.mpr ⟨hmem, hlive⟩⟩
  | remove host pinKey =>
      simp only [PinCall.publishes, removePinEntry] at h
      split at h
      · next hhas =>
          obtain rfl := Option.some.inj h
          have hpop := @PinMap.mem_pop key value (loadPinStoreUncached host found) pinKey hown
          rw [mem_load] at hpop
          exact ⟨fun hmem => (hpop.mp hmem).1, fun hmem hlive => hpop.mpr ⟨hmem, hlive⟩⟩
      · cases h
  | prune host =>
      cases found with
      | pins pins =>
          simp only [PinCall.publishes, prunePinStoreOrphans] at h
          split at h
          · cases h
          · obtain rfl := Option.some.inj h
            have hkept : (key, value) ∈ (applyEvictionPasses host pins).written.store.items ↔
                (key, value) ∈ pins.items ∧ survives host value = true :=
              (PinMap.mem_written _).trans List.mem_filter
            exact ⟨fun hmem => (hkept.mp hmem).1, fun hmem hlive => hkept.mpr ⟨hmem, hlive⟩⟩
      | missing => cases h
      | unreadable => cases h
      | notMapping => cases h
  | transfer host args =>
      simp only [PinCall.publishes] at h
      cases htransfer : transferPinEntry host args found with
      | mk result left =>
          rw [htransfer] at h
          cases result with
          | error e => cases h
          | ok done =>
              obtain rfl := Option.some.inj h
              obtain ⟨store, hstore, -, rfl, -⟩ := transfer_ok htransfer
              have hhead := @previousEntry_key host args found store hstore
              simp only [PinCall.own, not_or] at hown
              rw [mem_written hown.1, hhead]
              exact ⟨fun hmem => hmem.1, fun hmem _ => ⟨hmem, hown.2⟩⟩

theorem Access.blind_publishes (hblind : access.Blind file) (h : ¬ access.call.IsUpsert) :
    access.call.publishes (access.found file) = none := by
  obtain ⟨call, readFails, writeFails⟩ := access
  cases call with
  | upsert host pinKey runPath clientHint => exact absurd trivial h
  | remove host pinKey =>
      rcases hblind with hfound | hfound <;> rw [hfound] <;> rfl
  | prune host =>
      rcases hblind with hfound | hfound <;> rw [hfound] <;> rfl
  | transfer host args =>
      rcases hblind with hfound | hfound <;> rw [hfound] <;> rfl

theorem Access.found_eq (h : ¬ access.Blind file) : access.found file = file := by
  unfold Access.Blind Access.found at *
  cases file with
  | missing => rfl
  | unreadable => simp at h
  | notMapping => simp at h
  | pins pins =>
      simp only at h ⊢
      split
      · next hfails => simp [hfails] at h
      · rfl

/-! ## The frame -/

/-- What one transaction may do to the file. -/
structure Framed (access : Access) (file file' : PinFile) : Prop where
  /-- The entry of another session is kept, unless the eviction passes drop it now. -/
  kept : ∀ key value, (key, value) ∈ file.store.items → ¬ access.call.own file key →
    survives access.call.host value = true → (key, value) ∈ file'.store.items
  /-- And no entry of another session is made or changed. -/
  only : ∀ key value, (key, value) ∈ file'.store.items → ¬ access.call.own file key →
    (key, value) ∈ file.store.items
  /-- A file that gives no mapping is not replaced. -/
  guarded : access.Blind file → file' = file

/-- The condition: an upsert does not run while the file is there and its read fails, or gives no
mapping. -/
def Access.Sighted (access : Access) (file : PinFile) : Prop :=
  access.call.IsUpsert → ¬ access.Blind file

theorem Framed.refl (access : Access) (file : PinFile) : Framed access file file where
  kept _ _ hmem _ _ := hmem
  only _ _ hmem _ := hmem
  guarded _ := rfl

theorem Access.framed (h : access.Sighted file) : Framed access file (access.run file) := by
  unfold Access.run
  split
  · exact .refl _ _
  · by_cases hblind : access.Blind file
    · rw [Access.blind_publishes hblind fun hupsert => h hupsert hblind]
      exact .refl _ _
    · rw [Access.found_eq hblind]
      cases hpublished : access.call.publishes file with
      | none => exact .refl _ _
      | some file' =>
          exact
            { kept := fun key value hmem hown => (PinCall.published hpublished hown).2 hmem
              only := fun key value hmem hown => (PinCall.published hpublished hown).1 hmem
              guarded := fun hblind' => absurd hblind' hblind }

/-! ## Runs -/

/-- The next transaction of a run, where it meets the condition. -/
def SightedStep (file : PinFile) (access : Access) (file' : PinFile) : Prop :=
  access.Sighted file ∧ file' = access.run file

/-- The transaction is about another key, and its eviction passes keep the entry. -/
def Spares (key : String) (value : Json) (file : PinFile) (access : Access) (file' : PinFile) :
    Prop :=
  SightedStep file access file' ∧ ¬ access.call.own file key ∧
    survives access.call.host value = true

theorem run_kept {file₀ : PinFile} {accesses : List Access}
    (hrun : Run (Spares key value) file₀ accesses file) (h : (key, value) ∈ file₀.store.items) :
    (key, value) ∈ file.store.items := by
  refine hrun.invariant (I := fun file => (key, value) ∈ file.store.items) h ?_
  rintro file access file' hmem ⟨⟨hsighted, rfl⟩, hown, hlive⟩
  exact (Access.framed hsighted).kept key value hmem hown hlive

/-- In a run whose upserts all find a mapping or no file, every transaction keeps to its frame, and
what no transaction is about or evicts is there at the end. -/
theorem pin_frame {file₀ : PinFile} {accesses : List Access}
    (hrun : Run SightedStep file₀ accesses file) :
    (∀ before access after, accesses = before ++ access :: after →
      ∃ s s', Run SightedStep file₀ before s ∧ Framed access s s' ∧
        Run SightedStep s' after file) ∧
      ∀ key value, (key, value) ∈ file₀.store.items →
        Run (Spares key value) file₀ accesses file → (key, value) ∈ file.store.items := by
  refine ⟨?_, fun key value hmem hspared => run_kept hspared hmem⟩
  rintro before access after rfl
  obtain ⟨s, s', hbefore, ⟨hsighted, rfl⟩, hafter⟩ := hrun.split
  exact ⟨s, _, hbefore, Access.framed hsighted, hafter⟩

end

/-! ### An upsert beside another session's pin -/

def sampleUpsert (readFails : Bool) : Access :=
  ⟨.upsert sampleHost "c" "/runs/c" .null, readFails, false⟩

theorem sampleUpsert_sighted : (sampleUpsert false).Sighted staleFile := by
  rintro - (hblind | hblind)
  · cases hblind
  · cases hblind

theorem pin_frame_sample :
    (∀ before access after, [sampleUpsert false] = before ++ access :: after →
      ∃ s s', Run SightedStep staleFile before s ∧ Framed access s s' ∧
        Run SightedStep s' after ((sampleUpsert false).run staleFile)) ∧
      ∀ key value, (key, value) ∈ staleFile.store.items →
        Run (Spares key value) staleFile [sampleUpsert false] ((sampleUpsert false).run staleFile) →
          (key, value) ∈ ((sampleUpsert false).run staleFile).store.items :=
  pin_frame (Run.single ⟨sampleUpsert_sighted, rfl⟩)

/-- An upsert whose read failed leaves its own entry alone. -/
theorem upsert_replaces_unread :
    ("a", sampleEntry 1) ∈ staleFile.store.items ∧ survives sampleHost (sampleEntry 1) = true ∧
      ¬ Framed (sampleUpsert true) staleFile ((sampleUpsert true).run staleFile) := by
  refine ⟨List.mem_singleton.mpr rfl, by decide +kernel, fun h => ?_⟩
  have hkept := h.kept "a" (sampleEntry 1) (List.mem_singleton.mpr rfl)
    (show ¬ "a" = "c" by decide) (by decide +kernel)
  have hkey : "a" = "c" := congrArg Prod.fst (List.mem_singleton.mp hkept)
  exact absurd hkey (by decide)

end TrwMcp.Pins

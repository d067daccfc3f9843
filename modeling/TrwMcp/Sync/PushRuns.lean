import TrwMcp.Sync.Push

/-!
# What a push acknowledges was accepted

A push that reports no failure has settled a prefix of the rows it was given: each is accepted by a
successful reply or refused by its id, and the count reported is the count accepted. What the cycle
acknowledges follows, as long as no other target shares the label of the first.
-/

namespace TrwMcp.Sync

open Lib

/-! ## Requests are only added, and to the URL of the pusher -/

def Request.url : Request → String
  | .learnings url _ _ => url
  | .outcomes url _ _ => url

def Grows (w w' : Wire) : Prop := w.sent ⊆ w'.sent

def Posts (url : String) (w w' : Wire) : Prop :=
  ∃ more, w'.sent = w.sent ++ more ∧ ∀ q ∈ more, q.url = url

section

variable {α β : Type} {net : Net} {p : Pusher} {url : String}

theorem Grows.trans {w w' w'' : Wire} (h : Grows w w') (h' : Grows w' w'') : Grows w w'' :=
  List.Subset.trans h h'

theorem Posts.grows {w w' : Wire} (h : Posts url w w') : Grows w w' := by
  obtain ⟨more, heq, -⟩ := h
  rw [Grows, heq]
  exact List.subset_append_left _ _

theorem Posts.trans (w w' w'' : Wire) (h : Posts url w w') (h' : Posts url w' w'') :
    Posts url w w'' := by
  obtain ⟨more, heq, hmore⟩ := h
  obtain ⟨more', heq', hmore'⟩ := h'
  refine ⟨more ++ more', by rw [heq', heq, List.append_assoc], fun q hq => ?_⟩
  rcases List.mem_append.mp hq with hq | hq
  · exact hmore q hq
  · exact hmore' q hq

theorem Posts.refl (w : Wire) : Posts url w w := ⟨[], by simp, by simp⟩

theorem posts_pure (a : α) : Eff.Moves (Posts url) (pure a : Push α) :=
  Eff.moves_pure Posts.refl a

theorem posts_raise (e : String) : Eff.Moves (Posts url) (Eff.raise e : Push α) :=
  Eff.moves_raise Posts.refl e

theorem posts_ask (f : Nat → α) : Eff.Moves (Posts url) (ask f) :=
  fun w => ⟨[], by simp [ask], by simp⟩

theorem posts_bind {m : Push α} {f : α → Push β} (hm : Eff.Moves (Posts url) m)
    (hf : ∀ a, Eff.Moves (Posts url) (f a)) : Eff.Moves (Posts url) (m >>= f) :=
  Eff.moves_bind Posts.trans hm hf

theorem posts_anyRefused (items : List Entry) : Eff.Moves (Posts url) (anyRefused net items) := by
  induction items with
  | nil => exact posts_pure _
  | cons e rest ih =>
      refine posts_bind (posts_ask _) fun b => ?_
      split
      · exact posts_pure _
      · exact ih

theorem posts_learningsConsented : Eff.Moves (Posts p.url) (learningsConsented net p) := by
  unfold learningsConsented
  split
  · exact posts_ask _
  · exact posts_pure _

theorem posts_telemetryConsented : Eff.Moves (Posts p.url) (telemetryConsented net p) := by
  unfold telemetryConsented
  split
  · exact posts_ask _
  · exact posts_pure _

theorem posts_postLearnings (items : List Entry) :
    Eff.Moves (Posts p.url) (postLearnings net p items) := by
  refine posts_bind (posts_ask _) fun b => ?_
  split
  · refine posts_bind posts_learningsConsented fun b => ?_
    split
    · exact fun w => ⟨_, rfl, by simp [Request.url]⟩
    · exact posts_pure _
  · exact posts_pure _

theorem posts_postOutcomes (payloads : List String) :
    Eff.Moves (Posts p.url) (postOutcomes net p payloads) :=
  fun w => ⟨_, rfl, by simp [Request.url]⟩

theorem posts_send (fuel : Nat) (items : List Entry) (out : BatchOutcome)
    (inferred : List (String × String)) :
    Eff.Moves (Posts p.url) (send net p fuel items out inferred) := by
  induction fuel generalizing items out inferred with
  | zero => exact posts_pure _
  | succ fuel ih =>
      unfold send
      split
      · exact posts_pure _
      · refine posts_bind (posts_anyRefused _) fun b => ?_
        split
        · exact posts_pure _
        · refine posts_bind (posts_postLearnings _) fun reply => ?_
          cases reply with
          | raised => exact posts_pure _
          | ok errors inserted updated skipped =>
              dsimp only
              split
              · exact posts_pure _
              · exact posts_pure _
          | refused status reason => exact posts_pure _
          | unreadable => exact posts_raise _
          | unprocessable details reason =>
              dsimp only
              split
              · exact ih _ _ _
              · split
                · exact posts_pure _
                · split
                  · exact posts_pure _
                  · exact posts_bind (ih _ _ _) fun r => ih _ _ _

theorem posts_sendLearningBatch (items : List Entry) :
    Eff.Moves (Posts p.url) (sendLearningBatch net p items) := by
  refine posts_bind (posts_send _ _ _ _) fun r => ?_
  dsimp only
  split
  · exact posts_pure _
  · exact posts_pure _

theorem posts_batches {size : Int} (items : List α) :
    Eff.Moves (Posts url) (batches size items) := by
  unfold batches
  split
  · exact posts_raise _
  · split
    · exact posts_pure _
    · exact posts_pure _

theorem posts_pushBatches (all : List (List Entry)) (r : PushResult) :
    Eff.Moves (Posts p.url) (pushBatches net p all r) := by
  induction all generalizing r with
  | nil => exact posts_pure _
  | cons batch rest ih =>
      refine posts_bind (posts_ask _) fun b => ?_
      split
      · refine posts_bind posts_learningsConsented fun b => ?_
        split
        · refine posts_bind (posts_anyRefused _) fun b => ?_
          split
          · exact posts_pure _
          · exact posts_bind (posts_sendLearningBatch _) fun out => ih _
        · exact posts_pure _
      · exact posts_pure _

theorem posts_pushLearnings (entries : List Entry) :
    Eff.Moves (Posts p.url) (pushLearnings net p entries) := by
  unfold pushLearnings
  split
  · exact posts_pure _
  · refine posts_bind posts_learningsConsented fun b => ?_
    split
    · refine posts_bind (posts_ask _) fun b => ?_
      split
      · dsimp only
        split
        · exact posts_pure _
        · exact posts_bind (posts_batches _) fun all => posts_pushBatches _ _
      · exact posts_pure _
    · exact posts_pure _

theorem posts_pushOutcomeBatches (all : List (List String)) (r : PushResult) :
    Eff.Moves (Posts p.url) (pushOutcomeBatches net p all r) := by
  induction all generalizing r with
  | nil => exact posts_pure _
  | cons batch rest ih =>
      refine posts_bind (posts_ask _) fun b => ?_
      split
      · refine posts_bind posts_telemetryConsented fun b => ?_
        split
        · refine posts_bind (posts_postOutcomes _) fun reply => ?_
          cases reply with
          | raised => exact ih _
          | ok inserted => exact ih _
        · exact posts_pure _
      · exact posts_pure _

theorem posts_pushOutcomes (payloads : List String) :
    Eff.Moves (Posts p.url) (pushOutcomes net p payloads) := by
  unfold pushOutcomes
  split
  · exact posts_pure _
  · refine posts_bind posts_telemetryConsented fun b => ?_
    split
    · refine posts_bind (posts_ask _) fun b => ?_
      split
      · exact posts_bind (posts_batches _) fun all => posts_pushOutcomeBatches _ _
      · exact posts_pure _
    · exact posts_pure _

end

/-! ## What is settled of a list of rows -/

/-- The first target's URL answered, with success, a request that holds the row. -/
def Accepted (url : String) (w : Wire) (e : Entry) : Prop :=
  ∃ items reply, Request.learnings url items reply ∈ w.sent ∧ reply.success = true ∧ e ∈ items

/-- A successful reply counts every row of its request. -/
def Honest (net : Net) : Prop :=
  ∀ tick url items errors inserted updated skipped,
    net.learningsReply tick url items = .ok errors inserted updated skipped → errors ≤ 0 →
      inserted + updated + skipped = (items.length : Int)

/-- Of `done`, `n` rows are accepted and the others are refused, by the ids in `refused`. -/
def Settled (url : String) (w : Wire) (done : List Entry) (n : Int) (refused : String → Prop) :
    Prop :=
  ∃ accepted rest, done.Perm (accepted ++ rest) ∧ (∀ e ∈ accepted, Accepted url w e) ∧
    n = accepted.length ∧ ∀ id, refused id ↔ id ∈ rest.map (·.id)

section

variable {net : Net} {p : Pusher} {url : String} {w w' : Wire} {done more : List Entry} {n m : Int}
variable {refused other : String → Prop}

theorem Accepted.mono {e : Entry} (h : Accepted url w e) (hw : Grows w w') : Accepted url w' e := by
  obtain ⟨items, reply, hmem, hsuccess, he⟩ := h
  exact ⟨items, reply, hw hmem, hsuccess, he⟩

theorem Settled.mono (h : Settled url w done n refused) (hw : Grows w w') :
    Settled url w' done n refused := by
  obtain ⟨accepted, rest, hperm, hacc, hn, hrefused⟩ := h
  exact ⟨accepted, rest, hperm, fun e he => (hacc e he).mono hw, hn, hrefused⟩

theorem Settled.nil : Settled url w [] 0 fun _ => False :=
  ⟨[], [], .nil, by simp, rfl, by simp⟩

theorem Settled.append (h : Settled url w done n refused) (h' : Settled url w more m other) :
    Settled url w (done ++ more) (n + m) fun id => refused id ∨ other id := by
  obtain ⟨accepted, rest, hperm, hacc, rfl, hrefused⟩ := h
  obtain ⟨accepted', rest', hperm', hacc', rfl, hrefused'⟩ := h'
  refine ⟨accepted ++ accepted', rest ++ rest', ?_, ?_, by simp, fun id => ?_⟩
  · refine (hperm.append hperm').trans ?_
    simp only [List.append_assoc]
    refine List.Perm.append_left _ ?_
    simp only [← List.append_assoc]
    exact List.Perm.append_right _ List.perm_append_comm
  · intro e he
    rcases List.mem_append.mp he with h | h
    · exact hacc e h
    · exact hacc' e h
  · show refused id ∨ other id ↔ _
    rw [hrefused, hrefused']
    simp

theorem Settled.perm (h : Settled url w done n refused) (hperm : more.Perm done) :
    Settled url w more n refused := by
  obtain ⟨accepted, rest, hdone, hrest⟩ := h
  exact ⟨accepted, rest, hperm.trans hdone, hrest⟩

theorem Settled.congr (h : Settled url w done n refused) (hids : ∀ id, refused id ↔ other id) :
    Settled url w done n other := by
  obtain ⟨accepted, rest, hdone, hacc, hn, hrefused⟩ := h
  exact ⟨accepted, rest, hdone, hacc, hn, fun id => (hids id).symm.trans (hrefused id)⟩

theorem Settled.count (h : Settled url w done n refused) (hn : n = m) :
    Settled url w done m refused := hn ▸ h

theorem settled_refused (items : List Entry) :
    Settled url w items 0 fun id => id ∈ items.map (·.id) :=
  ⟨[], items, by simp, by simp, rfl, fun _ => Iff.rfl⟩

theorem Settled.slice_accepted (h : Settled url w done n refused)
    (hids : ((done ++ more).map (·.id)).Nodup) {keep : Entry → Bool}
    (hkeep : ∀ e, keep e = true ↔ ¬ refused e.id) :
    ∀ e ∈ slice ((done ++ more).filter keep) n, Accepted url w e := by
  obtain ⟨accepted, rest, hperm, hacc, rfl, hrefused⟩ := h
  have hdone : (done.map (·.id)).Nodup := by
    rw [List.map_append] at hids
    exact hids.of_append_left
  have hsplit : ((accepted ++ rest).map (·.id)).Nodup := (hperm.map _).nodup_iff.mp hdone
  have haccepted : (accepted ++ rest).filter keep = accepted := by
    rw [List.filter_append, List.filter_eq_self.mpr, List.filter_eq_nil_iff.mpr, List.append_nil]
    · intro e he
      rw [hkeep, hrefused]
      exact fun hnot => hnot (List.mem_map_of_mem he)
    · intro e he
      rw [hkeep, hrefused]
      intro hmem
      rw [List.map_append] at hsplit
      exact (List.nodup_append.mp hsplit).2.2 _ (List.mem_map_of_mem he) _ hmem rfl
  have hfilter : (done.filter keep).Perm accepted := by
    have := hperm.filter keep
    rwa [haccepted] at this
  have hlength : (done.filter keep).length = accepted.length := hfilter.length_eq
  intro e he
  have hslice : slice ((done ++ more).filter keep) (accepted.length : Int) =
      done.filter keep := by
    unfold slice
    rw [if_neg (by omega), Int.toNat_natCast, List.filter_append, ← hlength, List.take_left']
    rfl
  rw [hslice] at he
  exact hacc e (hfilter.mem_iff.mp he)

end

/-! ## One batch -/

section

variable {net : Net} {p : Pusher} {w w' : Wire}

theorem dict_has_set {ν : Type} (d : List (String × ν)) (k l : String) (v : ν) :
    Dict.has (Dict.set d k v) l = true ↔ l = k ∨ Dict.has d l = true := by
  unfold Dict.has
  rw [Dict.lookup_set]
  split
  · next h => simp [h]
  · next h => simp [h]

theorem dict_has_iff {ν : Type} (d : List (String × ν)) (k : String) :
    Dict.has d k = true ↔ k ∈ d.map (·.1) := by
  rw [Dict.has, Dict.lookup_isSome_iff]

theorem dict_has_update {ν : Type} (pairs d : List (String × ν)) (k : String) :
    Dict.has (pairs.foldl (fun d m => Dict.set d m.1 m.2) d) k = true ↔
      Dict.has d k = true ∨ Dict.has pairs k = true := by
  rw [dict_has_iff pairs]
  induction pairs generalizing d with
  | nil => simp
  | cons m rest ih =>
      rw [List.foldl_cons, ih, dict_has_set, List.map_cons, List.mem_cons]
      tauto

/-- The rows a 422 names. -/
def namedRows (items : List Entry) (named : List (Nat × String)) : List Entry :=
  (items.zipIdx.filter fun m => Dict.has named m.2).map (·.1)

theorem named_unnamed (items : List Entry) (named : List (Nat × String)) :
    items.Perm (namedRows items named ++ unnamed items named) := by
  have h : (items.zipIdx.map (·.1)).Perm
      (namedRows items named ++ unnamed items named) := by
    unfold namedRows unnamed
    rw [← List.map_append]
    exact ((List.filter_append_perm _ _).symm).map _
  rwa [List.zipIdx_map_fst] at h

theorem mem_namedRows {items : List Entry} {named : List (Nat × String)} {id : String} :
    id ∈ (namedRows items named).map (·.id) ↔
      ∃ m ∈ named, ∃ e, items[m.1]? = some e ∧ e.id = id := by
  unfold namedRows
  constructor
  · intro h
    obtain ⟨e, he, rfl⟩ := List.mem_map.mp h
    obtain ⟨⟨e', i⟩, hi, rfl⟩ := List.mem_map.mp he
    obtain ⟨hmem, hhas⟩ := List.mem_filter.mp hi
    have hkey : i ∈ named.map (·.1) := by
      rw [← Dict.lookup_isSome_iff]
      exact hhas
    obtain ⟨m, hm, rfl⟩ := List.mem_map.mp hkey
    exact ⟨m, hm, e', List.mem_zipIdx_iff_getElem?.mp hmem, rfl⟩
  · rintro ⟨m, hm, e, he, rfl⟩
    refine List.mem_map_of_mem (List.mem_map.mpr ⟨(e, m.1), List.mem_filter.mpr ⟨?_, ?_⟩, rfl⟩)
    · exact List.mem_zipIdx_iff_getElem?.mpr he
    · have : m.1 ∈ named.map (·.1) := List.mem_map_of_mem hm
      rw [← Dict.lookup_isSome_iff] at this
      exact this

theorem rejectNamed_has (items : List Entry) (named : List (Nat × String)) (out : BatchOutcome)
    (id : String) : Dict.has (rejectNamed items named out).rejected id = true ↔
      Dict.has out.rejected id = true ∨ id ∈ (namedRows items named).map (·.id) := by
  rw [mem_namedRows]
  unfold rejectNamed
  dsimp only
  generalize out.rejected = d
  induction named generalizing d with
  | nil => simp
  | cons m rest ih =>
      rw [List.foldl_cons, ih]
      cases he : items[m.1]? with
      | none => simp [he]
      | some e =>
          dsimp only
          rw [dict_has_set]
          simp only [List.mem_cons, exists_eq_or_imp, he, Option.some.injEq, exists_eq_left']
          constructor
          · rintro ((rfl | h) | h)
            · exact .inr (.inl rfl)
            · exact .inl h
            · exact .inr (.inr h)
          · rintro (h | rfl | h)
            · exact .inl (.inr h)
            · exact .inl (.inl rfl)
            · exact .inr h

theorem addReason_index {count : Nat} {acc : List (Nat × String) × Bool} (d : Detail)
    (h : ∀ m ∈ acc.1, m.1 < count) : ∀ m ∈ (addReason count acc d).1, m.1 < count := by
  unfold addReason
  cases d.loc with
  | request => exact h
  | nowhere => exact h
  | entry index field =>
      dsimp only
      split
      · next hrange =>
          intro m hm
          rcases Dict.mem_of_mem_set hm with rfl | hm
          · exact (Int.toNat_lt hrange.1).mpr hrange.2
          · exact h m hm
      · exact h

theorem entryReasons_index (details : List Detail) (count : Nat) :
    ∀ m ∈ (entryReasons details count).1, m.1 < count := by
  unfold entryReasons
  generalize hacc : (([], false) : List (Nat × String) × Bool) = acc
  have h : ∀ m ∈ acc.1, m.1 < count := by
    rw [← hacc]
    simp
  clear hacc
  induction details generalizing acc with
  | nil => exact h
  | cons d rest ih => exact ih _ (addReason_index d h)

theorem unnamed_shorter {items : List Entry} {named : List (Nat × String)} (hne : named ≠ [])
    (hindex : ∀ m ∈ named, m.1 < items.length) :
    (unnamed items named).length < items.length := by
  obtain ⟨m, hm⟩ := List.exists_mem_of_ne_nil named hne
  obtain ⟨e, hget⟩ : ∃ e, items[m.1]? = some e := ⟨_, List.getElem?_eq_getElem (hindex m hm)⟩
  have hrow : e ∈ namedRows items named := by
    refine List.mem_map.mpr ⟨(e, m.1), List.mem_filter.mpr
      ⟨List.mem_zipIdx_iff_getElem?.mpr hget, ?_⟩, rfl⟩
    have : m.1 ∈ named.map (·.1) := List.mem_map_of_mem hm
    rw [← Dict.lookup_isSome_iff] at this
    exact this
  have hlength := (named_unnamed items named).length_eq
  have hpos := List.length_pos_of_mem hrow
  rw [List.length_append] at hlength
  omega

theorem postLearnings_answered {items : List Entry} {reply : Reply}
    (h : postLearnings net p items w = (.ok reply, w')) :
    reply = .raised ∨ ∃ tick, net.learningsReply tick p.url items = reply ∧
      Request.learnings p.url items reply ∈ w'.sent := by
  unfold postLearnings at h
  obtain ⟨on, w₁, -, h⟩ := Eff.bind_eq_ok.mp h
  split at h
  · obtain ⟨consented, w₂, -, h⟩ := Eff.bind_eq_ok.mp h
    split at h
    · refine .inr ⟨w₂.tick, ?_⟩
      cases h
      exact ⟨rfl, List.mem_append_right _ List.mem_cons_self⟩
    · exact .inl (Eff.pure_eq_ok.mp h).1.symm
  · exact .inl (Eff.pure_eq_ok.mp h).1.symm

def Refused (out : BatchOutcome) (inferred : List (String × String)) (id : String) : Prop :=
  Dict.has out.rejected id = true ∨ Dict.has inferred id = true

/-- What a sender that starts from `out` may end in: more failures, or its rows settled. -/
def SendsRows (url : String) (items : List Entry) (out out' : BatchOutcome)
    (inferred inferred' : List (String × String)) (w' : Wire) : Prop :=
  out.failed ≤ out'.failed ∧ (out'.failed = out.failed → ∃ n refused,
    Settled url w' items n refused ∧
    out'.pushed + out'.skipped = out.pushed + out.skipped + n ∧
    ∀ id, Refused out' inferred' id ↔ Refused out inferred id ∨ refused id)

variable {url : String} {items : List Entry} {out out' : BatchOutcome}
variable {inferred inferred' : List (String × String)}

theorem sendsRows_refuseAll (hitems : items.isEmpty = false) (error : String) :
    SendsRows url items out (refuseAll items error out) inferred inferred w' := by
  have hpos : 0 < items.length := by
    cases items with
    | nil => cases hitems
    | cons e rest => simp
  refine ⟨Nat.le_add_right _ _, fun heq => ?_⟩
  have : out.failed + items.length = out.failed := heq
  omega

theorem sendsRows_nil : SendsRows url [] out out inferred inferred w' :=
  ⟨le_refl _, fun _ => ⟨0, fun _ => False, .nil, by omega, by simp⟩⟩

theorem send_settled (hhonest : Honest net) {fuel : Nat} (hfuel : items.length < fuel)
    (h : send net p fuel items out inferred w = (.ok (out', inferred'), w')) :
    SendsRows p.url items out out' inferred inferred' w' := by
  induction fuel generalizing items out inferred out' inferred' w w' with
  | zero => omega
  | succ fuel ih =>
      unfold send at h
      split at h
      · next hempty =>
          cases (Eff.pure_eq_ok.mp h).1
          rw [List.isEmpty_iff.mp hempty]
          exact sendsRows_nil
      · next hempty =>
          have hitems : items.isEmpty = false := by simpa using hempty
          obtain ⟨refused, w₁, -, h⟩ := Eff.bind_eq_ok.mp h
          split at h
          · cases (Eff.pure_eq_ok.mp h).1
            exact sendsRows_refuseAll hitems _
          · obtain ⟨reply, w₂, hreply, h⟩ := Eff.bind_eq_ok.mp h
            cases reply with
            | raised =>
                cases (Eff.pure_eq_ok.mp h).1
                exact sendsRows_refuseAll hitems _
            | refused status reason =>
                cases (Eff.pure_eq_ok.mp h).1
                exact sendsRows_refuseAll hitems _
            | unreadable => exact absurd h Eff.raise_ne_ok
            | ok errors inserted updated skipped =>
                dsimp only at h
                split at h
                · cases (Eff.pure_eq_ok.mp h).1
                  exact sendsRows_refuseAll hitems _
                · next herrors =>
                    obtain ⟨heq, rfl⟩ := Eff.pure_eq_ok.mp h
                    cases heq
                    rcases postLearnings_answered hreply with hraised | ⟨tick, hnet, hmem⟩
                    · cases hraised
                    · have hcount := hhonest _ _ _ _ _ _ _ hnet (by omega)
                      refine ⟨le_refl _, fun _ => ⟨items.length, fun _ => False, ?_, ?_, ?_⟩⟩
                      · refine ⟨items, [], by simp, fun e he => ?_, rfl, by simp⟩
                        refine ⟨items, _, hmem, ?_, he⟩
                        simpa [Reply.success] using herrors
                      · dsimp only
                        omega
                      · intro id
                        simp only [Refused, or_false]
            | unprocessable details reason =>
                dsimp only at h
                split at h
                · next hnamed =>
                    -- the named rows are refused, the others are sent again
                    have hne : (entryReasons details items.length).1 ≠ [] := by
                      simpa using hnamed
                    have hshort := unnamed_shorter hne (entryReasons_index details _)
                    obtain ⟨hle, hsettled⟩ := ih (by omega) h
                    refine ⟨hle, fun heq => ?_⟩
                    obtain ⟨n, refused', hrest, hcount, hids⟩ := hsettled heq
                    refine ⟨0 + n, _, ((settled_refused _).append hrest).perm
                      (named_unnamed items _), ?_, fun id => ?_⟩
                    · rw [hcount, Int.zero_add]
                      rfl
                    · rw [hids, Refused, rejectNamed_has, Refused]
                      tauto
                · split at h
                  · cases (Eff.pure_eq_ok.mp h).1
                    exact sendsRows_refuseAll hitems _
                  · split at h
                    · cases (Eff.pure_eq_ok.mp h).1
                      refine ⟨le_refl _, fun _ => ⟨0, _, settled_refused _, by omega, ?_⟩⟩
                      intro id
                      rw [Refused, Refused, dict_has_set]
                      simp only [List.map_cons, List.map_nil, List.mem_singleton]
                      tauto
                    · next hmany =>
                        obtain ⟨⟨out₁, inferred₁⟩, w₃, hfirst, h⟩ := Eff.bind_eq_ok.mp h
                        have htwo : 2 ≤ items.length := by
                          rcases items with _ | ⟨e, _ | ⟨e', rest⟩⟩
                          · cases hitems
                          · exact absurd rfl (hmany e)
                          · simp
                        have hfirsts : (items.take (items.length / 2)).length < fuel := by
                          rw [List.length_take]
                          omega
                        have hlasts : (items.drop (items.length / 2)).length < fuel := by
                          rw [List.length_drop]
                          omega
                        obtain ⟨hle₁, hsettled₁⟩ := ih hfirsts hfirst
                        obtain ⟨hle₂, hsettled₂⟩ := ih hlasts h
                        refine ⟨hle₁.trans hle₂, fun heq => ?_⟩
                        have heq₁ : out₁.failed = out.failed :=
                          le_antisymm (hle₂.trans heq.le) hle₁
                        have heq₂ : out'.failed = out₁.failed := heq.trans heq₁.symm
                        obtain ⟨n, ids, hhalf, hcount, hids⟩ := hsettled₁ heq₁
                        obtain ⟨m, ids', hhalf', hcount', hids'⟩ := hsettled₂ heq₂
                        have hgrows : Grows w₃ w' := ((posts_send _ _ _ _).at h).grows
                        refine ⟨n + m, fun id => ids id ∨ ids' id, ?_, ?_, fun id => ?_⟩
                        · have := (hhalf.mono hgrows).append hhalf'
                          rwa [List.take_append_drop] at this
                        · rw [hcount', hcount]
                          omega
                        · rw [hids', hids]
                          tauto

theorem sendLearningBatch_settled (hhonest : Honest net)
    (h : sendLearningBatch net p items w = (.ok out', w')) (hfailed : out'.failed = 0) :
    Settled p.url w' items (out'.pushed + out'.skipped)
      fun id => Dict.has out'.rejected id = true := by
  unfold sendLearningBatch at h
  obtain ⟨⟨out, inferred⟩, w₁, hsend, h⟩ := Eff.bind_eq_ok.mp h
  obtain ⟨-, hsettled⟩ := send_settled hhonest (by omega) hsend
  dsimp only at h
  split at h
  · next hall =>
      cases (Eff.pure_eq_ok.mp h).1
      have : out.failed + inferred.length = 0 := hfailed
      have hpos : 1 < inferred.length := by
        rw [hall.2.1]
        exact hall.2.2
      omega
  · obtain ⟨rfl, rfl⟩ := Eff.pure_eq_ok.mp h
    obtain ⟨n, refused, hrows, hcount, hids⟩ := hsettled hfailed
    have hn : out.pushed + out.skipped = n := by
      rw [hcount]
      simp
    dsimp only
    rw [hn]
    refine hrows.congr fun id => ?_
    rw [dict_has_update]
    have := hids id
    simp only [Refused, Dict.has, Dict.lookup_nil, Option.isSome_none, Bool.false_eq_true,
      false_or, or_self] at this
    exact this.symm

/-! ## A push -/

theorem batchesFrom_flatten {α : Type} {size : Nat} (hsize : 0 < size) {fuel : Nat}
    {items : List α} (hfuel : items.length ≤ fuel) :
    (batchesFrom size fuel items).flatten = items := by
  induction fuel generalizing items with
  | zero =>
      rw [List.length_eq_zero_iff.mp (Nat.le_zero.mp hfuel)]
      rfl
  | succ fuel ih =>
      unfold batchesFrom
      split
      · next hempty =>
          rw [List.isEmpty_iff.mp hempty]
          rfl
      · next hne =>
          have hpos : 0 < items.length := by
            rw [List.length_pos_iff]
            simpa using hne
          rw [List.flatten_cons, ih, List.take_append_drop]
          rw [List.length_drop]
          omega

theorem batches_flatten {α : Type} {size : Int} {items : List α} {all : List (List α)}
    (h : batches size items w = (.ok all, w')) :
    all.flatten <+: items ∧ (0 ≤ size → all.flatten = items) := by
  unfold batches at h
  split at h
  · exact absurd h Eff.raise_ne_ok
  · split at h
    · next hneg =>
        cases (Eff.pure_eq_ok.mp h).1
        exact ⟨List.nil_prefix, fun hpos => by omega⟩
    · cases (Eff.pure_eq_ok.mp h).1
      have : (batchesFrom size.toNat items.length items).flatten = items :=
        batchesFrom_flatten (by omega) (le_refl _)
      exact ⟨by simp [this], fun _ => this⟩

/-- Rows a push has gone through, given its counts. -/
def PushedRows (url : String) (w : Wire) (rows : List Entry) (r : PushResult) : Prop :=
  ∃ done, done <+: rows ∧ Settled url w done (r.pushed + r.skipped)
    fun id => Dict.has r.rejected id = true

theorem pushBatches_settled (hhonest : Honest net) {all : List (List Entry)}
    {done : List Entry} {r r' : PushResult} (hgrows : Grows w w')
    (hdone : r.failed = 0 → Settled p.url w done (r.pushed + r.skipped)
      fun id => Dict.has r.rejected id = true)
    (h : pushBatches net p all r w = (.ok r', w')) (hfailed : r'.failed = 0) :
    PushedRows p.url w' (done ++ all.flatten) r' := by
  induction all generalizing r done w with
  | nil =>
      cases (Eff.pure_eq_ok.mp h).1
      exact ⟨done, List.prefix_append _ _, (hdone hfailed).mono hgrows⟩
  | cons batch rest ih =>
      have hstop : r' = r → PushedRows p.url w' (done ++ (batch :: rest).flatten) r' := by
        rintro rfl
        exact ⟨done, List.prefix_append _ _, (hdone hfailed).mono hgrows⟩
      unfold pushBatches at h
      obtain ⟨on, w₁, hon, h⟩ := Eff.bind_eq_ok.mp h
      split at h
      · obtain ⟨consented, w₂, hconsented, h⟩ := Eff.bind_eq_ok.mp h
        split at h
        · obtain ⟨refused, w₃, hrefused, h⟩ := Eff.bind_eq_ok.mp h
          split at h
          · exact hstop (Eff.pure_eq_ok.mp h).1.symm
          · obtain ⟨out, w₄, hout, h⟩ := Eff.bind_eq_ok.mp h
            have hto : Posts p.url w w₄ :=
              .trans _ _ _ ((posts_ask _).at hon) (.trans _ _ _
                (posts_learningsConsented.at hconsented) (.trans _ _ _
                ((posts_anyRefused _).at hrefused) ((posts_sendLearningBatch _).at hout)))
            have hnext : (r.add out).failed = 0 → Settled p.url w₄ (done ++ batch)
                ((r.add out).pushed + (r.add out).skipped)
                fun id => Dict.has (r.add out).rejected id = true := by
              intro hadd
              have hzero : r.failed + out.failed = 0 := hadd
              have hprev := (hdone (by omega)).mono hto.grows
              have hbatch := sendLearningBatch_settled hhonest hout (by omega)
              refine ((hprev.append hbatch).congr fun id => ?_).count ?_
              · rw [PushResult.add, dict_has_update]
              · show r.pushed + r.skipped + (out.pushed + out.skipped) =
                  r.pushed + out.pushed + (r.skipped + out.skipped)
                omega
            have hrest := ih (((posts_pushBatches _ _).at h).grows) hnext h
            rwa [List.append_assoc, ← List.flatten_cons] at hrest
        · exact hstop (Eff.pure_eq_ok.mp h).1.symm
      · exact hstop (Eff.pure_eq_ok.mp h).1.symm

theorem settled_none (url : String) (w : Wire) :
    Settled url w [] (({} : PushResult).pushed + ({} : PushResult).skipped)
      fun id => Dict.has ({} : PushResult).rejected id = true :=
  (Settled.nil.congr fun id => by simp [Dict.has]).count rfl

theorem pushedRows_none (rows : List Entry) : PushedRows url w rows {} :=
  ⟨[], List.nil_prefix, settled_none url w⟩

theorem pushLearnings_settled (hhonest : Honest net) {rows : List Entry} {r : PushResult}
    (h : pushLearnings net p rows w = (.ok r, w')) (hfailed : r.failed = 0) :
    PushedRows p.url w' (rows.filter (!net.aboveTeam ·)) r := by
  unfold pushLearnings at h
  split at h
  · cases (Eff.pure_eq_ok.mp h).1
    exact pushedRows_none _
  · obtain ⟨consented, w₁, -, h⟩ := Eff.bind_eq_ok.mp h
    split at h
    · obtain ⟨on, w₂, -, h⟩ := Eff.bind_eq_ok.mp h
      split at h
      · dsimp only at h
        split at h
        · cases (Eff.pure_eq_ok.mp h).1
          exact pushedRows_none _
        · obtain ⟨all, w₃, hall, h⟩ := Eff.bind_eq_ok.mp h
          obtain ⟨done, hdone, hsettled⟩ := pushBatches_settled hhonest
            (((posts_pushBatches _ _).at h).grows) (fun _ => settled_none p.url w₃) h hfailed
          exact ⟨done, hdone.trans (batches_flatten hall).1, hsettled⟩
      · cases (Eff.pure_eq_ok.mp h).1
        exact pushedRows_none _
    · cases (Eff.pure_eq_ok.mp h).1
      exact pushedRows_none _

/-! ## Outcomes -/

/-- The URL accepted a request that holds the payload. -/
def Delivered (url : String) (w : Wire) (payload : String) : Prop :=
  ∃ payloads inserted, Request.outcomes url payloads (.ok inserted) ∈ w.sent ∧ payload ∈ payloads

/-- From the moment on, the switches are open before each of so many batches of outcomes. -/
def BatchesOpen (net : Net) (count tick : Nat) : Prop :=
  ∀ k < count, net.contact (tick + 3 * k) = true ∧ net.platformTelemetry (tick + 3 * k + 1) = true

/-- The switches are open when the push of so many batches begins, and before each of them. -/
def SwitchesOpen (net : Net) (count tick : Nat) : Prop :=
  net.platformTelemetry tick = true ∧ net.contact (tick + 1) = true ∧
    BatchesOpen net count (tick + 2)

theorem Delivered.mono {payload : String} (h : Delivered url w payload) (hw : Grows w w') :
    Delivered url w' payload := by
  obtain ⟨payloads, inserted, hmem, hpayload⟩ := h
  exact ⟨payloads, inserted, hw hmem, hpayload⟩

theorem BatchesOpen.next {count tick : Nat} (h : BatchesOpen net (count + 1) tick) :
    BatchesOpen net count (tick + 3) := by
  intro k hk
  have := h (k + 1) (by omega)
  rw [show tick + 3 * (k + 1) = tick + 3 + 3 * k by omega] at this
  exact this

theorem ask_eq_ok {α : Type} {f : Nat → α} {a : α} (h : ask f w = (.ok a, w')) :
    f w.tick = a ∧ w'.tick = w.tick + 1 ∧ w'.sent = w.sent := by
  cases h
  exact ⟨rfl, rfl, rfl⟩

theorem telemetryConsented_eq_ok (hflag : p.platformTelemetry = true) {b : Bool}
    (h : telemetryConsented net p w = (.ok b, w')) :
    net.platformTelemetry w.tick = b ∧ w'.tick = w.tick + 1 := by
  rw [telemetryConsented, if_pos hflag] at h
  obtain ⟨hon, htick, -⟩ := ask_eq_ok h
  exact ⟨hon, htick⟩

theorem pushOutcomeBatches_delivered (hflag : p.platformTelemetry = true)
    {all : List (List String)} {r r' : PushResult} (hopen : BatchesOpen net all.length w.tick)
    (h : pushOutcomeBatches net p all r w = (.ok r', w')) :
    r.failed ≤ r'.failed ∧
      (r'.failed = 0 → (∀ b ∈ all, b ≠ []) → ∀ x ∈ all.flatten, Delivered p.url w' x) := by
  induction all generalizing r w with
  | nil =>
      cases (Eff.pure_eq_ok.mp h).1
      exact ⟨le_refl _, fun _ _ x hx => by cases hx⟩
  | cons batch rest ih =>
      have hcontact : net.contact w.tick = true := (hopen 0 (by simp)).1
      have htelemetry : net.platformTelemetry (w.tick + 1) = true := (hopen 0 (by simp)).2
      unfold pushOutcomeBatches at h
      obtain ⟨on, w₁, hon, h⟩ := Eff.bind_eq_ok.mp h
      obtain ⟨rfl, htick₁, -⟩ := ask_eq_ok hon
      rw [if_pos hcontact] at h
      obtain ⟨consented, w₂, hconsented, h⟩ := Eff.bind_eq_ok.mp h
      obtain ⟨rfl, htick₂⟩ := telemetryConsented_eq_ok hflag hconsented
      rw [if_pos (by rw [htick₁]; exact htelemetry)] at h
      obtain ⟨reply, w₃, hreply, h⟩ := Eff.bind_eq_ok.mp h
      have htick₃ : w₃.tick = w.tick + 3 := by
        cases hreply
        show w₂.tick + 1 = _
        omega
      have hnext : BatchesOpen net rest.length w₃.tick := htick₃ ▸ hopen.next
      cases reply with
      | raised =>
          obtain ⟨hle, -⟩ := ih hnext h
          have hle : r.failed + batch.length ≤ r'.failed := hle
          refine ⟨by omega, fun hzero hne => ?_⟩
          have := List.length_pos_iff.mpr (hne batch List.mem_cons_self)
          omega
      | ok inserted =>
          obtain ⟨hle, hrest⟩ := ih hnext h
          refine ⟨hle, fun hzero hne x hx => ?_⟩
          rw [List.flatten_cons] at hx
          rcases List.mem_append.mp hx with hx | hx
          · have hsent : Delivered p.url w₃ x := by
              refine ⟨batch, inserted, ?_, hx⟩
              injection hreply with hanswer hwire
              injection hanswer with hanswer
              rw [← hwire, ← hanswer]
              exact List.mem_append_right _ List.mem_cons_self
            exact hsent.mono ((posts_pushOutcomeBatches _ _).at h).grows
          · exact hrest hzero (fun b hb => hne b (List.mem_cons_of_mem _ hb)) x hx

theorem batchesFrom_ne_nil {α : Type} {size : Nat} (hsize : 0 < size) {fuel : Nat}
    {items b : List α} (hb : b ∈ batchesFrom size fuel items) : b ≠ [] := by
  induction fuel generalizing items with
  | zero => cases hb
  | succ fuel ih =>
      unfold batchesFrom at hb
      split at hb
      · cases hb
      · next hne =>
          rcases List.mem_cons.mp hb with rfl | hb
          · rw [Ne, List.take_eq_nil_iff]
            rintro (hzero | hnil)
            · omega
            · exact hne (by rw [hnil]; rfl)
          · exact ih hb

/-- How many batches the outcomes are sent in. -/
def batchCount (size : Int) (payloads : List String) : Nat :=
  (batchesFrom size.toNat payloads.length payloads).length

theorem pushOutcomes_delivered (hflag : p.platformTelemetry = true) (hsize : 0 ≤ p.batchSize)
    {payloads : List String} {r : PushResult}
    (hopen : SwitchesOpen net (batchCount p.batchSize payloads) w.tick)
    (h : pushOutcomes net p payloads w = (.ok r, w')) (hfailed : r.failed = 0) :
    ∀ x ∈ payloads, Delivered p.url w' x := by
  obtain ⟨htelemetry, hcontact, hbatches⟩ := hopen
  unfold pushOutcomes at h
  split at h
  · next hempty =>
      rw [List.isEmpty_iff.mp hempty]
      exact fun x hx => by cases hx
  · obtain ⟨consented, w₁, hconsented, h⟩ := Eff.bind_eq_ok.mp h
    obtain ⟨rfl, htick₁⟩ := telemetryConsented_eq_ok hflag hconsented
    rw [if_pos htelemetry] at h
    obtain ⟨on, w₂, hon, h⟩ := Eff.bind_eq_ok.mp h
    obtain ⟨rfl, htick₂, -⟩ := ask_eq_ok hon
    rw [if_pos (by rw [htick₁]; exact hcontact)] at h
    obtain ⟨all, w₃, hall, h⟩ := Eff.bind_eq_ok.mp h
    unfold batches at hall
    split at hall
    · exact absurd hall Eff.raise_ne_ok
    · split at hall
      · omega
      · obtain ⟨rfl, rfl⟩ := Eff.pure_eq_ok.mp hall
        have htick : w₂.tick = w.tick + 2 := by omega
        have hopen : BatchesOpen net (batchesFrom p.batchSize.toNat payloads.length
            payloads).length w₂.tick := htick ▸ hbatches
        obtain ⟨-, hdelivered⟩ := pushOutcomeBatches_delivered hflag hopen h
        have := hdelivered hfailed fun b hb => batchesFrom_ne_nil (by omega) hb
        rwa [batchesFrom_flatten (by omega) (le_refl _)] at this

/-! ## The fan-out -/

variable {c : Client} {dirty : List Entry} {payloads : List String}

theorem posts_pushToTarget (t : Target) :
    Eff.Moves (Posts (c.pusherOf t).url) (pushToTarget net c t dirty payloads) :=
  posts_bind (posts_pushLearnings _) fun _ => posts_bind (posts_pushOutcomes _) fun _ =>
    posts_pure _

theorem attempt_eq {α : Type} (m : Push α) (w : Wire) :
    Eff.handle (fun _ => true) (do let r ← m; pure (Except.ok r))
      (fun error => pure (.error error)) w = (.ok (m w).1, (m w).2) := by
  cases hm : m w with
  | mk r w' =>
      cases r with
      | ok a => exact Eff.handle_of_ok (Eff.bind_of_ok hm)
      | error e =>
          rw [Eff.handle_of_error (Eff.bind_of_error hm), if_pos rfl]
          rfl

theorem fanoutPush_cons (label : String) (t : Target) (rest : List Target) (f : Fanout)
    (w : Wire) : fanoutPush net c label dirty payloads (t :: rest) f w =
      fanoutPush net c label dirty payloads rest
        (f.record label t (pushToTarget net c t dirty payloads w).1)
        (pushToTarget net c t dirty payloads w).2 := by
  rw [fanoutPush]
  exact Eff.bind_of_ok (attempt_eq _ _)

theorem record_other {label : String} {t : Target} (ht : t.label ≠ label) (f : Fanout)
    (r : Except String TargetPushOutcome) :
    (f.record label t r).primary = f.primary ∧
      Dict.lookup (f.record label t r).report label = Dict.lookup f.report label := by
  cases r with
  | error e => exact ⟨rfl, Dict.lookup_set_ne _ (Ne.symm ht) _⟩
  | ok r =>
      refine ⟨?_, Dict.lookup_set_ne _ (Ne.symm ht) _⟩
      show (if t.label = label ∧ r.status = .success then r else f.primary) = f.primary
      rw [if_neg (fun h => ht h.1)]

theorem fanoutPush_others {label : String} {targets : List Target}
    (hlabel : ∀ t ∈ targets, t.label ≠ label) (f : Fanout) (w : Wire) :
    ∃ f' w', fanoutPush net c label dirty payloads targets f w = (.ok f', w') ∧ Grows w w' ∧
      f'.primary = f.primary ∧ Dict.lookup f'.report label = Dict.lookup f.report label := by
  induction targets generalizing f w with
  | nil => exact ⟨f, w, rfl, List.Subset.refl _, rfl, rfl⟩
  | cons t rest ih =>
      rw [fanoutPush_cons]
      obtain ⟨f', w', heq, hgrows, hprimary, hreport⟩ :=
        ih (fun t' ht' => hlabel t' (List.mem_cons_of_mem _ ht'))
          (f.record label t (pushToTarget net c t dirty payloads w).1)
          (pushToTarget net c t dirty payloads w).2
      obtain ⟨hp, hr⟩ := record_other (hlabel t List.mem_cons_self) f
        (pushToTarget net c t dirty payloads w).1
      exact ⟨f', w', heq, (posts_pushToTarget t w).grows.trans hgrows, hprimary.trans hp,
        hreport.trans hr⟩

theorem fanoutPush_avoids {label : String} {targets : List Target}
    (hurl : ∀ t ∈ targets, (c.pusherOf t).url ≠ url) (f : Fanout) (w : Wire) :
    ∃ f' w', fanoutPush net c label dirty payloads targets f w = (.ok f', w') ∧
      ∀ q ∈ w'.sent, q ∈ w.sent ∨ q.url ≠ url := by
  induction targets generalizing f w with
  | nil => exact ⟨f, w, rfl, fun q hq => .inl hq⟩
  | cons t rest ih =>
      rw [fanoutPush_cons]
      obtain ⟨f', w', heq, hsent⟩ := ih (fun t' ht' => hurl t' (List.mem_cons_of_mem _ ht'))
        (f.record label t (pushToTarget net c t dirty payloads w).1)
        (pushToTarget net c t dirty payloads w).2
      refine ⟨f', w', heq, fun q hq => ?_⟩
      rcases hsent q hq with hq | hq
      · obtain ⟨more, happend, hmore⟩ := posts_pushToTarget t w
        rw [happend] at hq
        rcases List.mem_append.mp hq with hq | hq
        · exact .inl hq
        · right
          rw [hmore q hq]
          exact hurl t List.mem_cons_self
      · exact .inr hq

variable {first : Target} {rest : List Target}

theorem pusherOf_first (htargets : c.targets = first :: rest)
    (hlabel : ∀ t ∈ rest, t.label ≠ first.label) : c.pusherOf first = c.pusherFor first := by
  rw [Client.pusherOf, Client.pushers, Dict.lookup_ofPairs, htargets, List.map_cons,
    List.reverse_cons, List.find?_append]
  have hnone : ((rest.map fun t => (t.label, c.pusherFor t)).reverse.find?
      (·.1 = first.label)) = none := by
    rw [List.find?_eq_none]
    intro m hm
    obtain ⟨t, ht, rfl⟩ := List.mem_map.mp (List.mem_reverse.mp hm)
    simpa using hlabel t ht
  rw [hnone]
  simp

theorem pusherOf_avoids_first (htargets : c.targets = first :: rest)
    (hurls : (c.targets.map (·.url)).Nodup) (hshared : ∃ t ∈ rest, t.label = first.label) :
    ∀ t ∈ c.targets, (c.pusherOf t).url ≠ first.url := by
  intro t ht
  have hfirst : ∀ t' ∈ rest, t'.url ≠ first.url := by
    rw [htargets, List.map_cons, List.nodup_cons] at hurls
    intro t' ht' heq
    exact hurls.1 (heq ▸ List.mem_map_of_mem ht')
  have hfound : ∃ m, ((rest.map fun t => (t.label, c.pusherFor t)).reverse.find?
      (·.1 = t.label)) = some m := by
    rw [← Option.isSome_iff_exists, List.find?_isSome]
    obtain ⟨t', ht', hlabel⟩ : ∃ t' ∈ rest, t'.label = t.label := by
      rw [htargets] at ht
      rcases List.mem_cons.mp ht with rfl | ht
      · exact hshared
      · exact ⟨t, ht, rfl⟩
    exact ⟨(t'.label, c.pusherFor t'), List.mem_reverse.mpr (List.mem_map.mpr ⟨t', ht', rfl⟩),
      by simpa using hlabel⟩
  obtain ⟨m, hm⟩ := hfound
  rw [Client.pusherOf, Client.pushers, Dict.lookup_ofPairs, htargets, List.map_cons,
    List.reverse_cons, List.find?_append, hm]
  obtain ⟨t', ht', rfl⟩ := List.mem_map.mp (List.mem_reverse.mp (List.mem_of_find?_eq_some hm))
  exact hfirst t' ht'

/-! ## What the cycle acknowledges -/

/-- The dirty rows that may leave the host. -/
def sendable (net : Net) (c : Client) (rows : List Entry) : List Entry :=
  (if c.learningSharing then rows else []).filter (!net.aboveTeam ·)

def pendingOf (c : Client) (loaded : List PendingOutcome) : List PendingOutcome :=
  if c.platformTelemetry then loaded else []

/-- No switch cuts the first target's push of outcomes short: the batch size is no negative number,
and telemetry consent and platform contact are on whenever that push asks. -/
def OutcomesOpen (net : Net) (c : Client) (first : Target) (rows : List Entry)
    (loaded : List PendingOutcome) : Prop :=
  0 ≤ c.batchSize ∧
    SwitchesOpen net (batchCount c.batchSize ((pendingOf c loaded).map (·.payload)))
      (pushLearnings net (c.pusherFor first) (sendable net c rows) ⟨0, []⟩).2.tick

variable {rows : List Entry} {loaded : List PendingOutcome} {f : Fanout}

theorem pushHalf_of_fanout (htargets : c.targets = first :: rest)
    (h : fanoutPush net c first.label (sendable net c rows)
      ((pendingOf c loaded).map (·.payload)) (first :: rest) {} w = (.ok f, w')) :
    pushHalf net c rows loaded w = (.ok (acknowledgeOutcomes c (pendingOf c loaded) f
      (Dict.lookup f.report first.label) (acknowledgeLearnings (sendable net c rows) f
        (Dict.lookup f.report first.label)
        { labelled := (if c.learningSharing then rows else []).filter net.aboveTeam })), w') := by
  simp only [pushHalf, htargets]
  exact Eff.bind_of_ok h

theorem mem_synced {status : Option TargetStatus} {pending : List PendingOutcome}
    {labelled : List Entry} {e : Entry}
    (h : e ∈ (acknowledgeOutcomes c pending f status
      (acknowledgeLearnings dirty f status { labelled := labelled })).synced) :
    status = some .success ∧ f.primary.learnings.failed = 0 ∧
      e ∈ slice (notRejected f.primary.learnings dirty)
        (f.primary.learnings.pushed + f.primary.learnings.skipped) := by
  have hkeep : (acknowledgeOutcomes c pending f status
      (acknowledgeLearnings dirty f status { labelled := labelled })).synced =
      (acknowledgeLearnings dirty f status { labelled := labelled }).synced := by
    unfold acknowledgeOutcomes
    split
    · rfl
    · rfl
  rw [hkeep] at h
  unfold acknowledgeLearnings at h
  split at h
  · next hack => exact ⟨hack.2.1, hack.2.2, h⟩
  · cases h

theorem outcomes_acknowledged {status : Option TargetStatus} {pending : List PendingOutcome}
    {labelled : List Entry}
    (h : (acknowledgeOutcomes c pending f status
        (acknowledgeLearnings dirty f status { labelled := labelled })).outcomeLine ≠ none ∨
      (acknowledgeOutcomes c pending f status
        (acknowledgeLearnings dirty f status { labelled := labelled })).markers ≠ []) :
    status = some .success ∧ c.platformTelemetry = true ∧ f.primary.outcomes.failed = 0 := by
  unfold acknowledgeOutcomes at h
  split at h
  · next hack =>
      obtain ⟨-, hstatus, haccepted⟩ := hack
      rw [outcomesWereAccepted, Bool.and_eq_true] at haccepted
      exact ⟨hstatus, haccepted.1, of_decide_eq_true haccepted.2⟩
  · unfold acknowledgeLearnings at h
    split at h
    · rcases h with h | h
      · exact absurd rfl h
      · exact absurd rfl h
    · rcases h with h | h
      · exact absurd rfl h
      · exact absurd rfl h

theorem record_success {r : Except String TargetPushOutcome}
    (h : Dict.lookup (Fanout.record first.label first {} r).report first.label =
      some .success) :
    ∃ o, r = .ok o ∧ o.failed = 0 ∧ (Fanout.record first.label first {} r).primary = o := by
  cases r with
  | error e =>
      rw [Fanout.record, Dict.lookup_set_self] at h
      cases h
  | ok o =>
      rw [Fanout.record, Dict.lookup_set_self, Option.some_inj] at h
      refine ⟨o, rfl, ?_, ?_⟩
      · unfold TargetPushOutcome.status at h
        split at h
        · cases h
        · omega
      · show (if first.label = first.label ∧ o.status = .success then o else _) = o
        rw [if_pos ⟨rfl, h⟩]

theorem synced_accepted (hhonest : Honest net) (hpusher : c.pusherOf first = c.pusherFor first)
    (hrows : (rows.map (·.id)).Nodup) {o : TargetPushOutcome}
    (h : pushToTarget net c first (sendable net c rows) payloads w = (.ok o, w'))
    (hfailed : o.failed = 0) :
    ∀ e ∈ slice (notRejected o.learnings (sendable net c rows))
      (o.learnings.pushed + o.learnings.skipped), Accepted first.url w' e := by
  unfold pushToTarget at h
  rw [hpusher] at h
  obtain ⟨r, w₁, hlearnings, h⟩ := Eff.bind_eq_ok.mp h
  obtain ⟨r', w₂, houtcomes, h⟩ := Eff.bind_eq_ok.mp h
  obtain ⟨rfl, rfl⟩ := Eff.pure_eq_ok.mp h
  have hzero : r.failed + r'.failed = 0 := hfailed
  have hsettled := pushLearnings_settled hhonest hlearnings (by omega)
  have hall : (sendable net c rows).filter (!net.aboveTeam ·) = sendable net c rows := by
    rw [sendable, List.filter_filter]
    simp only [Bool.and_self]
  rw [hall] at hsettled
  obtain ⟨done, ⟨more, hmore⟩, hdone⟩ := hsettled
  have hids : ((done ++ more).map (·.id)).Nodup := by
    rw [hmore]
    refine hrows.sublist (List.Sublist.map _ ?_)
    unfold sendable
    split
    · exact List.filter_sublist
    · exact List.nil_sublist _
  intro e he
  rw [notRejected, ← hmore] at he
  have := hdone.slice_accepted hids (fun e => by simp) e he
  exact this.mono ((posts_pushOutcomes _).at houtcomes).grows

theorem outcomes_delivered (hpusher : c.pusherOf first = c.pusherFor first)
    (hflag : c.platformTelemetry = true) (hopen : OutcomesOpen net c first rows loaded)
    {o : TargetPushOutcome}
    (h : pushToTarget net c first (sendable net c rows) ((pendingOf c loaded).map (·.payload))
      ⟨0, []⟩ = (.ok o, w')) (hfailed : o.failed = 0) :
    ∀ x ∈ loaded, Delivered first.url w' x.payload := by
  unfold pushToTarget at h
  rw [hpusher] at h
  obtain ⟨r, w₁, hlearnings, h⟩ := Eff.bind_eq_ok.mp h
  obtain ⟨r', w₂, houtcomes, h⟩ := Eff.bind_eq_ok.mp h
  obtain ⟨rfl, rfl⟩ := Eff.pure_eq_ok.mp h
  have hzero : r.failed + r'.failed = 0 := hfailed
  obtain ⟨hsize, hswitches⟩ := hopen
  rw [hlearnings] at hswitches
  have hdelivered := pushOutcomes_delivered hflag hsize hswitches houtcomes (by omega)
  have hpending : pendingOf c loaded = loaded := if_pos hflag
  rw [hpending] at hdelivered
  exact fun x hx => hdelivered _ (List.mem_map_of_mem hx)

end

theorem push_acknowledged {net : Net} (hhonest : Honest net) {c : Client} {first : Target}
    {rest : List Target} (htargets : c.targets = first :: rest)
    (hurls : (c.targets.map (·.url)).Nodup) {rows : List Entry}
    (hrows : (rows.map (·.id)).Nodup) (loaded : List PendingOutcome) :
    ∃ ack w, pushHalf net c rows loaded ⟨0, []⟩ = (.ok ack, w) ∧
      ((∀ t ∈ rest, t.label ≠ first.label) →
        (∀ e ∈ ack.synced, Accepted first.url w e) ∧
        (OutcomesOpen net c first rows loaded → ack.outcomeLine ≠ none ∨ ack.markers ≠ [] →
          ∀ o ∈ loaded, Delivered first.url w o.payload) ∧
        (pushHalf net { c with targets := [first] } rows loaded ⟨0, []⟩).1 = .ok ack) ∧
      ((∃ t ∈ rest, t.label = first.label) → ∀ q ∈ w.sent, q.url ≠ first.url) := by
  by_cases hshared : ∃ t ∈ rest, t.label = first.label
  · have havoid := pusherOf_avoids_first htargets hurls hshared
    rw [htargets] at havoid
    obtain ⟨f, w, hfanout, hsent⟩ := @fanoutPush_avoids net first.url c (sendable net c rows)
      ((pendingOf c loaded).map (·.payload)) first.label _ havoid {} ⟨0, []⟩
    refine ⟨_, w, pushHalf_of_fanout htargets hfanout, fun hunique => ?_, fun _ q hq => ?_⟩
    · obtain ⟨t, ht, hlabel⟩ := hshared
      exact absurd hlabel (hunique t ht)
    · exact (hsent q hq).resolve_left (by simp)
  · have hunique : ∀ t ∈ rest, t.label ≠ first.label :=
      fun t ht hlabel => hshared ⟨t, ht, hlabel⟩
    have hpusher := pusherOf_first htargets hunique
    -- the first target is served before the others, and they change nothing of its result
    cases hfirst : pushToTarget net c first (sendable net c rows)
        ((pendingOf c loaded).map (·.payload)) ⟨0, []⟩ with
    | mk r w₁ =>
        obtain ⟨f, w, hfanout, hgrows, hprimary, hreport⟩ := @fanoutPush_others net c
          (sendable net c rows) ((pendingOf c loaded).map (·.payload)) first.label rest hunique
          (Fanout.record first.label first {} r) w₁
        have hall : fanoutPush net c first.label (sendable net c rows)
            ((pendingOf c loaded).map (·.payload)) (first :: rest) {} ⟨0, []⟩ = (.ok f, w) := by
          rw [fanoutPush_cons, hfirst]
          exact hfanout
        refine ⟨_, w, pushHalf_of_fanout htargets hall, fun _ => ⟨?_, ?_, ?_⟩,
          fun h => absurd h hshared⟩
        · intro e he
          obtain ⟨hstatus, -, hmem⟩ := mem_synced he
          rw [hreport] at hstatus
          obtain ⟨o, rfl, hfailed, hresult⟩ := record_success hstatus
          rw [hprimary, hresult] at hmem
          exact (synced_accepted hhonest hpusher hrows hfirst hfailed e hmem).mono hgrows
        · intro hopen hack x hx
          obtain ⟨hstatus, hflag, -⟩ := outcomes_acknowledged hack
          rw [hreport] at hstatus
          obtain ⟨o, rfl, hfailed, hresult⟩ := record_success hstatus
          exact (outcomes_delivered hpusher hflag hopen hfirst hfailed x hx).mono hgrows
        · have halone : fanoutPush net { c with targets := [first] } first.label
              (sendable net c rows) ((pendingOf c loaded).map (·.payload)) [first] {} ⟨0, []⟩ =
              (.ok (Fanout.record first.label first {} r), w₁) := by
            have hsame : pushToTarget net { c with targets := [first] } first
                (sendable net c rows) ((pendingOf c loaded).map (·.payload)) =
                pushToTarget net c first (sendable net c rows)
                  ((pendingOf c loaded).map (·.payload)) := by
              have hp : ({ c with targets := [first] } : Client).pusherOf first =
                  c.pusherFor first :=
                pusherOf_first rfl (by simp)
              unfold pushToTarget
              rw [hp, hpusher]
            rw [fanoutPush_cons, hsame, hfirst]
            rfl
          have hack : pushHalf net { c with targets := [first] } rows loaded ⟨0, []⟩ =
              (.ok _, w₁) := pushHalf_of_fanout rfl halone
          rw [hack, hreport]
          unfold acknowledgeOutcomes acknowledgeLearnings
          rw [hprimary]
          rfl

/-! ## One target, two targets of one host, and a consent withdrawn -/

def sampleHostname (url : String) : Option String :=
  if url = "http://localhost:8000" ∨ url = "http://localhost:9000" then some "localhost" else none

def sampleClient (urls : List String) : Client :=
  ⟨buildTargets sampleHostname urls, 100, true, true⟩

/-- Everything is open but, it may be, the live telemetry consent, and every request succeeds. -/
def sampleNet (telemetry : Bool) : Net where
  aboveTeam := fun _ => false
  contact := fun _ => true
  learningSharing := fun _ => true
  platformTelemetry := fun _ => telemetry
  quarantined := fun _ _ => false
  learningsReply := fun _ _ items => .ok 0 items.length 0 0
  outcomesReply := fun _ _ payloads => .ok payloads.length

def sampleRow : Entry := ⟨"L-1", 1⟩

def sampleOutcome : PendingOutcome := ⟨"outcome", 1, some "runs/t/r", "hash", "r"⟩

theorem sampleNet_honest (telemetry : Bool) : Honest (sampleNet telemetry) := by
  intro tick url items errors inserted updated skipped h herrors
  injection h with _ hinserted hupdated hskipped
  omega

theorem push_acknowledged_sample :
    ∃ ack w, pushHalf (sampleNet true) (sampleClient ["http://localhost:8000"]) [sampleRow]
        [sampleOutcome] ⟨0, []⟩ = (.ok ack, w) ∧
      (∀ e ∈ ack.synced, Accepted "http://localhost:8000" w e) ∧
      (∀ o ∈ [sampleOutcome], Delivered "http://localhost:8000" w o.payload) ∧
      ack.synced = [sampleRow] ∧ ack.markers = [sampleOutcome] := by
  obtain ⟨ack, w, hrun, hall, -⟩ := push_acknowledged (sampleNet_honest true)
    (c := sampleClient ["http://localhost:8000"]) rfl (by decide)
    (show ([sampleRow].map (·.id)).Nodup by decide) [sampleOutcome]
  obtain ⟨haccepted, hdelivered, -⟩ := hall (by simp)
  have hack : ack.synced = [sampleRow] ∧ ack.markers = [sampleOutcome] := by
    injection hrun with hack hwire
    injection hack with hack
    rw [← hack]
    exact ⟨by rfl, by rfl⟩
  refine ⟨ack, w, hrun, haccepted, hdelivered ?_ (.inr ?_), hack⟩
  · refine ⟨by decide, rfl, rfl, fun k _ => ⟨rfl, rfl⟩⟩
  · rw [hack.2]
    simp

theorem exists_of_result {ε α β : Type} {x : Except ε α × β} (p : α → β → Bool)
    (h : (match x with
      | (.ok a, b) => p a b
      | (.error _, _) => false) = true) : ∃ a b, x = (.ok a, b) ∧ p a b = true := by
  rcases x with ⟨_ | a, b⟩
  · cases h
  · exact ⟨a, b, rfl, h⟩

/-- With two targets of one host the rows are marked for what the second answered; with the consent
withdrawn the markers are written and nothing was sent. -/
theorem shared_host_and_closed_switch :
    (∃ ack w, pushHalf (sampleNet true)
        (sampleClient ["http://localhost:8000", "http://localhost:9000"]) [sampleRow] [] ⟨0, []⟩ =
          (.ok ack, w) ∧
      ack.synced = [sampleRow] ∧ ¬ Accepted "http://localhost:8000" w sampleRow) ∧
    ∃ ack w, pushHalf (sampleNet false) (sampleClient ["http://localhost:8000"]) []
        [sampleOutcome] ⟨0, []⟩ = (.ok ack, w) ∧
      ack.markers = [sampleOutcome] ∧ ack.outcomeLine = some 1 ∧
      ¬ Delivered "http://localhost:8000" w sampleOutcome.payload := by
  constructor
  · obtain ⟨ack, w, hrun, hchecked⟩ := exists_of_result (x := pushHalf (sampleNet true)
      (sampleClient ["http://localhost:8000", "http://localhost:9000"]) [sampleRow] [] ⟨0, []⟩)
      (fun ack w => decide (ack.synced = [sampleRow]) &&
        w.sent.all fun q => q.url == "http://localhost:9000") (by decide +kernel)
    simp only [Bool.and_eq_true, decide_eq_true_eq, List.all_eq_true, beq_iff_eq] at hchecked
    refine ⟨ack, w, hrun, hchecked.1, ?_⟩
    rintro ⟨items, reply, hmem, -⟩
    have hurl : "http://localhost:8000" = "http://localhost:9000" := hchecked.2 _ hmem
    exact absurd hurl (by decide)
  · obtain ⟨ack, w, hrun, hchecked⟩ := exists_of_result (x := pushHalf (sampleNet false)
      (sampleClient ["http://localhost:8000"]) [] [sampleOutcome] ⟨0, []⟩)
      (fun ack w => decide (ack.markers = [sampleOutcome]) &&
        (decide (ack.outcomeLine = some 1) && w.sent.isEmpty)) (by decide +kernel)
    simp only [Bool.and_eq_true, decide_eq_true_eq, List.isEmpty_iff] at hchecked
    refine ⟨ack, w, hrun, hchecked.1, hchecked.2.1, ?_⟩
    rintro ⟨payloads, inserted, hmem, -⟩
    rw [hchecked.2.2] at hmem
    cases hmem

end TrwMcp.Sync

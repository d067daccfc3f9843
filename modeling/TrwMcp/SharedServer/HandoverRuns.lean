import TrwMcp.Lib.Exec
import TrwMcp.SharedServer.Handover

/-!
# What survives a handover

A withdrawal that has read its own name removes nobody else's as long as nobody publishes before its
unlink. Then an open door is named by the record, or is leaving, or has a successor that will still
ask it to drain.
-/

set_option linter.unusedSectionVars false

namespace TrwMcp.SharedServer

open Lib

section

variable {S P R : Type} [DecidableEq S] [DecidableEq P] [DecidableEq R]
variable {method : R → String} {maxInflight : Nat}

namespace SharedWorld

/-! ## What a step leaves -/

theorem spawnServer_frame (w : SharedWorld S P R) (s : S) (successor : Bool) :
    (w.spawnServer s successor).record = w.record ∧
      (w.spawnServer s successor).claim = w.claim ∧
      (w.spawnServer s successor).requests = w.requests ∧
      (w.spawnServer s successor).applied = w.applied ∧
      ((w.spawnServer s successor).servers = w.servers ∨
        ∃ t successor', (w.servers t).stage = .absent ∧ (w.spawnServer s successor).servers =
          Function.update w.servers t { w.servers t with stage := .waiting successor' }) := by
  by_cases habsent : (w.servers s).stage = .absent
  · rw [spawnServer, if_pos habsent]
    exact ⟨rfl, rfl, rfl, rfl, .inr ⟨s, successor, habsent, rfl⟩⟩
  · rw [spawnServer, if_neg habsent]
    exact ⟨rfl, rfl, rfl, rfl, .inl rfl⟩

theorem start_frame (w : SharedWorld S P R) (deed : SharedDeed S P R) :
    (w.start deed).record = w.record ∧ (w.start deed).claim = w.claim ∧
      (w.start deed).requests = w.requests ∧ (w.start deed).applied = w.applied ∧
      ((w.start deed).servers = w.servers ∨ ∃ t successor, (w.servers t).stage = .absent ∧
        (w.start deed).servers =
          Function.update w.servers t { w.servers t with stage := .waiting successor }) := by
  cases deed <;> dsimp only [start] <;>
    repeat' (first
      | exact ⟨rfl, rfl, rfl, rfl, .inl rfl⟩
      | exact w.spawnServer_frame _ _
      | split)

theorem serve_frame (w : SharedWorld S P R) (deed : SharedDeed S P R) :
    (w.serve deed).requests = w.requests ∧ (w.serve deed).applied = w.applied := by
  cases deed <;> dsimp only [serve] <;> repeat' (first | exact ⟨rfl, rfl⟩ | split)

theorem forward_frame (method : R → String) (maxInflight : Nat) (w : SharedWorld S P R)
    (deed : SharedDeed S P R) :
    (w.forward method maxInflight deed).record = w.record ∧
      (w.forward method maxInflight deed).claim = w.claim ∧
      ((w.forward method maxInflight deed).servers = w.servers ∨ ∃ s inFlight,
        (w.forward method maxInflight deed).servers =
          Function.update w.servers s { w.servers s with inFlight }) := by
  have hlose : ∀ r gaveUp, (w.lose method r gaveUp).record = w.record ∧
      (w.lose method r gaveUp).claim = w.claim ∧
      (w.lose method r gaveUp).servers = w.servers := by
    intro r gaveUp
    unfold lose
    split <;> exact ⟨rfl, rfl, rfl⟩
  have hloses : ∀ r gaveUp, (w.lose method r gaveUp).record = w.record ∧
      (w.lose method r gaveUp).claim = w.claim ∧
      ((w.lose method r gaveUp).servers = w.servers ∨ ∃ s inFlight,
        (w.lose method r gaveUp).servers =
          Function.update w.servers s { w.servers s with inFlight }) := fun r gaveUp =>
    ⟨(hlose r gaveUp).1, (hlose r gaveUp).2.1, .inl (hlose r gaveUp).2.2⟩
  cases deed <;> dsimp only [forward] <;>
    repeat' (first
      | exact ⟨rfl, rfl, .inl rfl⟩
      | exact hloses _ _
      | exact ⟨rfl, rfl, .inr ⟨_, _, rfl⟩⟩
      | split)

/-! ## Withdrawals -/

/-- Nobody publishes between the read and the unlink of another server's withdrawal. -/
def RegularShared (w : SharedWorld S P R) : SharedDeed S P R → Prop
  | .publish _ => ∀ t, (w.servers t).removing = none
  | _ => True

/-- What is being removed is the server's own record, or is gone. -/
def OwnWithdrawals (w : SharedWorld S P R) : Prop :=
  ∀ t, (w.servers t).removing ≠ none → w.record = some t ∨ w.record = none

theorem OwnWithdrawals.update {w v : SharedWorld S P R} (h : OwnWithdrawals w) {s : S}
    {new : EnvServer S R} (hservers : v.servers = Function.update w.servers s new)
    (hrecord : v.record = w.record)
    (hnew : new.removing ≠ none → (w.servers s).removing ≠ none ∨ w.record = some s) :
    OwnWithdrawals v := by
  intro t ht
  rw [hservers, Function.update_apply] at ht
  rw [hrecord]
  split at ht
  · next heq =>
      subst heq
      exact (hnew ht).elim (h t) .inl
  · exact h t ht

theorem OwnWithdrawals.serve {w : SharedWorld S P R} (h : OwnWithdrawals w)
    {deed : SharedDeed S P R} (hregular : RegularShared w deed) :
    OwnWithdrawals (w.serve deed) := by
  cases deed <;> dsimp only [SharedWorld.serve]
  case publish s =>
    split
    · intro t ht
      refine absurd ?_ ht
      change (Function.update w.servers s _ t).removing = none
      rw [Function.update_apply]
      split
      · exact hregular s
      · exact hregular t
    · exact h
  case unlink s =>
    split
    · exact fun _ _ => .inr rfl
    · exact fun _ _ => .inr rfl
    · exact h
  case askDrain s delivered =>
    split
    · split
      · split
        · next a _ _ =>
            have hasked : OwnWithdrawals
                (w.setServer a { w.servers a with draining := true }) := h.update rfl rfl .inl
            exact hasked.update rfl rfl .inl
        · exact h.update rfl rfl .inl
      · exact h.update rfl rfl .inl
    · exact h
  case idle s =>
    split
    · refine h.update rfl rfl fun hnew => ?_
      split at hnew
      · next hrecord => exact .inr hrecord
      · exact .inl hnew
    · exact h
  case leave s =>
    split
    · refine h.update rfl rfl fun hnew => ?_
      split at hnew
      · next hrecord => exact .inr hrecord
      · exact .inl hnew
    · exact h
  case crash s =>
    split
    · exact h.update rfl rfl fun hnew => absurd rfl hnew
    · exact h
  all_goals repeat' (first | exact h | exact h.update rfl rfl .inl | split)

theorem OwnWithdrawals.exec {w : SharedWorld S P R} (h : OwnWithdrawals w)
    {deed : SharedDeed S P R} (hregular : RegularShared w deed) :
    OwnWithdrawals (w.exec method maxInflight deed) := by
  have hstart : OwnWithdrawals (w.start deed) := by
    obtain ⟨hrecord, -, -, -, hservers | ⟨s, successor, -, hservers⟩⟩ := w.start_frame deed
    · intro t ht
      rw [hservers] at ht
      rw [hrecord]
      exact h t ht
    · exact h.update hservers hrecord .inl
  have hforward : OwnWithdrawals (w.forward method maxInflight deed) := by
    obtain ⟨hrecord, -, hservers | ⟨s, inFlight, hservers⟩⟩ :=
      forward_frame method maxInflight w deed
    · intro t ht
      rw [hservers] at ht
      rw [hrecord]
      exact h t ht
    · exact h.update hservers hrecord .inl
  unfold SharedWorld.exec
  split <;> first | exact h.serve hregular | exact hstart | exact hforward

theorem exec_removes {w : SharedWorld S P R} {deed : SharedDeed S P R} {s : S}
    (hrecord : w.record = some s) (hnone : (w.exec method maxInflight deed).record = none) :
    ∃ t, deed = .unlink t ∧ (w.servers t).removing ≠ none := by
  have hkeep : ∀ v : SharedWorld S P R, v.record = w.record → v.record ≠ none := by
    intro v hv hn
    rw [hv, hrecord] at hn
    cases hn
  have hserve : (w.serve deed).record = none →
      ∃ t, deed = .unlink t ∧ (w.servers t).removing ≠ none := by
    intro hn
    cases deed <;> dsimp only [SharedWorld.serve] at hn
    case unlink t =>
      refine ⟨t, rfl, fun hremoving => ?_⟩
      rw [hremoving] at hn
      exact hkeep w rfl hn
    case publish t =>
      split at hn
      · cases hn
      · exact absurd hn (hkeep w rfl)
    all_goals
      refine absurd hn (hkeep _ ?_)
      repeat' (first | rfl | split)
  unfold SharedWorld.exec at hnone
  split at hnone <;> first
    | exact hserve hnone
    | exact absurd hnone (hkeep _ (w.start_frame _).1)
    | exact absurd hnone (hkeep _ (forward_frame _ _ w _).1)

/-! ## Requests -/

/-- The request may still be sent, or the proxy says that it was not applied. -/
def fresh : ForwardStage S → Bool
  | .ready | .resolved _ | .answered .notApplied => true
  | _ => false

/-- What may still be sent was not passed to an app, and nothing was passed twice. -/
structure Once (w : SharedWorld S P R) (r : R) : Prop where
  never : fresh (w.requests r) = true → ∀ m ∈ w.applied, m.2 ≠ r
  once : (w.applied.filter fun m => decide (m.2 = r)).length ≤ 1

theorem Once.update {w v : SharedWorld S P R} {r : R} (h : Once w r) {r' : R}
    {stage : ForwardStage S} (hrequests : v.requests = Function.update w.requests r' stage)
    (happlied : v.applied = w.applied)
    (hstage : r' = r → fresh stage = true → fresh (w.requests r) = true) : Once v r := by
  refine ⟨fun hfresh => ?_, by rw [happlied]; exact h.once⟩
  rw [hrequests, Function.update_apply] at hfresh
  rw [happlied]
  refine h.never ?_
  split at hfresh
  · next heq => exact hstage heq.symm hfresh
  · exact hfresh

theorem Once.pass {w v : SharedWorld S P R} {r : R} (h : Once w r) {r' : R} {s : S}
    (hfresh : fresh (w.requests r') = true)
    (hrequests : v.requests = Function.update w.requests r' (.passed s))
    (happlied : v.applied = w.applied ++ [(s, r')]) : Once v r := by
  by_cases heq : r' = r
  · subst heq
    have hnone : (w.applied.filter fun m => decide (m.2 = r')) = [] := by
      rw [List.filter_eq_nil_iff]
      exact fun m hm hmem => h.never hfresh m hm (of_decide_eq_true hmem)
    refine ⟨fun hf => ?_, ?_⟩
    · rw [hrequests, Function.update_self] at hf
      cases hf
    · rw [happlied, List.filter_append, hnone, List.nil_append]
      exact List.length_filter_le _ _
  · have hsame : (v.applied.filter fun m => decide (m.2 = r)) =
        w.applied.filter fun m => decide (m.2 = r) := by
      rw [happlied, List.filter_append, List.filter_cons_of_neg (by simpa using heq),
        List.filter_nil, List.append_nil]
    refine ⟨fun hf m hm => ?_, by rw [hsame]; exact h.once⟩
    rw [hrequests, Function.update_of_ne (Ne.symm heq)] at hf
    rw [happlied] at hm
    rcases List.mem_append.mp hm with hm | hm
    · exact h.never hf m hm
    · obtain rfl := List.mem_singleton.mp hm
      exact heq

theorem Once.lose {w : SharedWorld S P R} {r : R} (h : Once w r)
    (hmethod : method r ∉ readOnlyMethods) (r' : R) (gaveUp : Bool) :
    Once (w.lose method r' gaveUp) r := by
  unfold SharedWorld.lose
  split
  · next hread => exact h.update rfl rfl fun heq => absurd (heq ▸ hread) hmethod
  · exact h.update rfl rfl fun _ hfresh => nomatch hfresh

theorem Once.forward {w : SharedWorld S P R} {r : R} (h : Once w r)
    (hmethod : method r ∉ readOnlyMethods) (deed : SharedDeed S P R) :
    Once (w.forward method maxInflight deed) r := by
  cases deed <;> dsimp only [SharedWorld.forward]
  case resolve r' =>
    split
    · next hready _ => exact h.update rfl rfl fun heq _ => by rw [← heq, hready]; rfl
    · exact h
  case resolveFails r' =>
    split
    · exact h.update rfl rfl fun _ hfresh => nomatch hfresh
    · exact h
  case post r' fate gaveUp =>
    split
    · next s hresolved =>
        have hfresh : fresh (w.requests r') = true := by rw [hresolved]; rfl
        have hagain : Once (w.again r' gaveUp) r := h.update rfl rfl fun heq _ => heq ▸ hfresh
        split
        · exact hagain
        · exact h.lose hmethod r' gaveUp
        · split
          · split
            · exact hagain
            · exact hagain
            · exact hagain
            · exact h.update rfl rfl fun _ hf => nomatch hf
            · exact h.pass hfresh rfl rfl
          · exact h
    · exact h
  case respond r' ok =>
    split
    · refine h.update rfl rfl fun _ hfresh => ?_
      cases ok <;> cases hfresh
    · exact h
  case disconnect r' gaveUp =>
    split
    · exact h.lose hmethod r' gaveUp
    · exact h
  all_goals exact ⟨h.never, h.once⟩

theorem Once.exec {w : SharedWorld S P R} {r : R} (h : Once w r)
    (hmethod : method r ∉ readOnlyMethods) (deed : SharedDeed S P R) :
    Once (w.exec method maxInflight deed) r := by
  have hkeep : ∀ v : SharedWorld S P R, v.requests = w.requests → v.applied = w.applied →
      Once v r := by
    intro v hrequests happlied
    exact ⟨by rw [hrequests, happlied]; exact h.never, by rw [happlied]; exact h.once⟩
  unfold SharedWorld.exec
  split <;> first
    | exact hkeep _ (w.serve_frame _).1 (w.serve_frame _).2
    | exact hkeep _ (w.start_frame _).2.2.1 (w.start_frame _).2.2.2.1
    | exact h.forward hmethod _

/-! ## Doors -/

end SharedWorld

/-- A server that has published takes requests. -/
def EnvServer.opened (server : EnvServer S R) : Bool := server.stage.up && !server.draining

def EnvServer.leaving (server : EnvServer S R) : Bool :=
  server.shouldExit || server.removing.isSome

/-- The server that will still be asked to drain. -/
def ServerStage.asks : ServerStage S → Option S
  | .published prior | .handing prior => prior
  | _ => none

namespace SharedWorld

structure HandoverInv (w : SharedWorld S P R) : Prop where
  claim : ∀ s, (w.servers s).stage.claims = true ↔ w.claim = some s
  named : ∀ s, w.record = some s → (w.servers s).stage.up = true
  prior : ∀ s p, (w.servers s).stage = .booting p → ∀ a, w.record = some a → p = some a
  opened : ∀ a, (w.servers a).opened = true → w.record = some a ∨
    (w.servers a).leaving = true ∨ ∃ b, (w.servers b).stage.asks = some a
  last : ∀ s, (w.servers s).removing = some .last → (w.servers s).stage = .serving

theorem HandoverInv.update {w v : SharedWorld S P R} (h : HandoverInv w) {s : S}
    {new : EnvServer S R} (hservers : v.servers = Function.update w.servers s new)
    (hrecord : v.record = w.record) (hclaim : new.stage.claims = true ↔ v.claim = some s)
    (hothers : ∀ t, t ≠ s → (v.claim = some t ↔ w.claim = some t))
    (hup : w.record = some s → new.stage.up = true)
    (hprior : ∀ p, new.stage = .booting p → ∀ a, w.record = some a → p = some a)
    (hopened : new.opened = true → new.leaving = true ∨ ((w.servers s).opened = true ∧
      ((w.servers s).leaving = true → new.leaving = true)))
    (hasks : ∀ a, (w.servers s).stage.asks = some a → (v.servers a).opened = true →
      new.stage.asks = some a)
    (hlast : new.removing = some .last → new.stage = .serving) : HandoverInv v := by
  have hself : v.servers s = new := by rw [hservers, Function.update_self]
  have hother : ∀ t, t ≠ s → v.servers t = w.servers t := fun t ht => by
    rw [hservers, Function.update_of_ne ht]
  have hasked : ∀ a, (v.servers a).opened = true → (∃ b, (w.servers b).stage.asks = some a) →
      ∃ b, (v.servers b).stage.asks = some a := by
    rintro a ha ⟨b, hb⟩
    refine ⟨b, ?_⟩
    by_cases heq : b = s
    · subst heq
      rw [hself]
      exact hasks a hb ha
    · rw [hother b heq]
      exact hb
  refine ⟨fun t => ?_, fun t ht => ?_, fun t p ht a ha => ?_, fun a ha => ?_, fun t ht => ?_⟩
  · by_cases heq : t = s
    · subst heq
      rw [hself]
      exact hclaim
    · rw [hother t heq, hothers t heq]
      exact h.claim t
  · rw [hrecord] at ht
    by_cases heq : t = s
    · subst heq
      rw [hself]
      exact hup ht
    · rw [hother t heq]
      exact h.named t ht
  · rw [hrecord] at ha
    by_cases heq : t = s
    · subst heq
      rw [hself] at ht
      exact hprior p ht a ha
    · rw [hother t heq] at ht
      exact h.prior t p ht a ha
  · rw [hrecord]
    by_cases heq : a = s
    · subst heq
      have hnew := ha
      rw [hself] at hnew
      rcases hopened hnew with hleaving | ⟨hold, hkeep⟩
      · exact .inr (.inl (by rw [hself]; exact hleaving))
      · rcases h.opened a hold with hr | hl | hb
        · exact .inl hr
        · exact .inr (.inl (by rw [hself]; exact hkeep hl))
        · exact .inr (.inr (hasked a ha hb))
    · have hold := ha
      rw [hother a heq] at hold
      rcases h.opened a hold with hr | hl | hb
      · exact .inl hr
      · exact .inr (.inl (by rw [hother a heq]; exact hl))
      · exact .inr (.inr (hasked a ha hb))
  · by_cases heq : t = s
    · subst heq
      rw [hself] at ht ⊢
      exact hlast ht
    · rw [hother t heq] at ht ⊢
      exact h.last t ht

theorem HandoverInv.boot {w v : SharedWorld S P R} (h : HandoverInv w) {s : S}
    {stage : ServerStage S}
    (hservers : v.servers = Function.update w.servers s { w.servers s with stage })
    (hrecord : v.record = w.record) (hdown : (w.servers s).stage.up = false)
    (hdown' : stage.up = false) (hclaim : stage.claims = true ↔ v.claim = some s)
    (hothers : ∀ t, t ≠ s → (v.claim = some t ↔ w.claim = some t))
    (hprior : ∀ p, stage = .booting p → ∀ a, w.record = some a → p = some a) :
    HandoverInv v := by
  refine h.update hservers hrecord hclaim hothers (fun hr => ?_) hprior (fun ho => ?_)
    (fun a ha _ => ?_) fun hremoving => ?_
  · rw [h.named s hr] at hdown
    cases hdown
  · have hup : (stage.up && !(w.servers s).draining) = true := ho
    rw [hdown'] at hup
    cases hup
  · cases hstage : (w.servers s).stage with
    | absent | waiting | claiming | booting | serving | exited =>
        rw [hstage] at ha
        cases ha
    | published | handing =>
        rw [hstage] at hdown
        cases hdown
  · rw [h.last s hremoving] at hdown
    cases hdown

theorem HandoverInv.flags {w v : SharedWorld S P R} (h : HandoverInv w) {s : S}
    {new : EnvServer S R} (hservers : v.servers = Function.update w.servers s new)
    (hrecord : v.record = w.record) (hclaim : v.claim = w.claim)
    (hstage : new.stage = (w.servers s).stage)
    (hopened : new.opened = true → new.leaving = true ∨ ((w.servers s).opened = true ∧
      ((w.servers s).leaving = true → new.leaving = true)))
    (hlast : new.removing = some .last → (w.servers s).stage = .serving) : HandoverInv v := by
  refine h.update hservers hrecord (by rw [hstage, hclaim]; exact h.claim s)
    (fun _ _ => by rw [hclaim]) (fun hr => by rw [hstage]; exact h.named s hr)
    (fun p hp => h.prior s p (hstage ▸ hp)) hopened (fun a ha _ => by rw [hstage]; exact ha)
    fun hremoving => by rw [hstage]; exact hlast hremoving

theorem HandoverInv.served {w v : SharedWorld S P R} (h : HandoverInv w) {s : S}
    {stage : ServerStage S}
    (hservers : v.servers = Function.update w.servers s { w.servers s with stage })
    (hrecord : v.record = w.record) (hwas : (w.servers s).stage.up = true)
    (hne : (w.servers s).stage ≠ .serving)
    (hup : stage.up = true) (hclaim : stage.claims = true ↔ v.claim = some s)
    (hothers : ∀ t, t ≠ s → (v.claim = some t ↔ w.claim = some t))
    (hasks : ∀ a, (w.servers s).stage.asks = some a → (v.servers a).opened = true →
      stage.asks = some a) : HandoverInv v := by
  refine h.update hservers hrecord hclaim hothers (fun _ => hup) (fun p hp => ?_)
    (fun ho => .inr ⟨?_, fun hl => hl⟩) hasks fun hremoving => absurd (h.last s hremoving) hne
  · have hb : (ServerStage.booting p).up = true := hp ▸ hup
    cases hb
  · have hboth : (stage.up && !(w.servers s).draining) = true := ho
    rw [hup] at hboth
    change ((w.servers s).stage.up && !(w.servers s).draining) = true
    rw [hwas]
    exact hboth

theorem HandoverInv.publish {w v : SharedWorld S P R} (h : HandoverInv w) {s : S}
    {prior : Option S} (hbooting : (w.servers s).stage = .booting prior)
    (hservers : v.servers =
      Function.update w.servers s { w.servers s with stage := .published prior })
    (hrecord : v.record = some s) (hclaim : v.claim = w.claim) : HandoverInv v := by
  have hclaims : w.claim = some s := (h.claim s).mp (by rw [hbooting]; rfl)
  have hself : v.servers s = { w.servers s with stage := .published prior } := by
    rw [hservers, Function.update_self]
  have hother : ∀ t, t ≠ s → v.servers t = w.servers t := fun t ht => by
    rw [hservers, Function.update_of_ne ht]
  refine ⟨fun t => ?_, fun t ht => ?_, fun t p ht a ha => ?_, fun a ha => ?_, fun t ht => ?_⟩
  · rw [hclaim]
    by_cases heq : t = s
    · subst heq
      rw [hself]
      exact iff_of_true rfl hclaims
    · rw [hother t heq]
      exact h.claim t
  · obtain rfl := Option.some.inj (hrecord.symm.trans ht)
    rw [hself]
    rfl
  · by_cases heq : t = s
    · subst heq
      rw [hself] at ht
      cases ht
    · rw [hother t heq] at ht
      have hsecond : w.claim = some t := (h.claim t).mp (by rw [ht]; rfl)
      exact absurd (Option.some.inj (hsecond.symm.trans hclaims)) heq
  · by_cases heq : a = s
    · subst heq
      exact .inl hrecord
    · rw [hother a heq] at ha ⊢
      rcases h.opened a ha with hr | hl | ⟨b, hb⟩
      · refine .inr (.inr ⟨s, ?_⟩)
        rw [hself]
        exact h.prior s prior hbooting a hr
      · exact .inr (.inl hl)
      · refine .inr (.inr ⟨b, ?_⟩)
        have hne : b ≠ s := by
          rintro rfl
          rw [hbooting] at hb
          cases hb
        rw [hother b hne]
        exact hb
  · by_cases heq : t = s
    · subst heq
      rw [hself] at ht
      have hserving := h.last t ht
      rw [hbooting] at hserving
      cases hserving
    · rw [hother t heq] at ht ⊢
      exact h.last t ht

theorem HandoverInv.unlink {w v : SharedWorld S P R} (h : HandoverInv w) {s : S}
    {new : EnvServer S R} (hown : w.record = some s ∨ w.record = none)
    (hservers : v.servers = Function.update w.servers s new) (hrecord : v.record = none)
    (hclaim : v.claim = w.claim) (hclosed : new.opened = false) (hremoving : new.removing = none)
    (hstage : new.stage = (w.servers s).stage ∨
      (w.servers s).stage = .serving ∧ new.stage = .exited) : HandoverInv v := by
  have hself : v.servers s = new := by rw [hservers, Function.update_self]
  have hother : ∀ t, t ≠ s → v.servers t = w.servers t := fun t ht => by
    rw [hservers, Function.update_of_ne ht]
  refine ⟨fun t => ?_, fun t ht => ?_, fun t p ht a ha => ?_, fun a ha => ?_, fun t ht => ?_⟩
  · rw [hclaim]
    by_cases heq : t = s
    · subst heq
      rw [hself, ← h.claim t]
      rcases hstage with hs | ⟨hwas, hs⟩
      · rw [hs]
      · rw [hs, hwas]
        exact .rfl
    · rw [hother t heq]
      exact h.claim t
  · rw [hrecord] at ht
    cases ht
  · rw [hrecord] at ha
    cases ha
  · have hne : a ≠ s := by
      rintro rfl
      rw [hself, hclosed] at ha
      cases ha
    rw [hother a hne] at ha ⊢
    rcases h.opened a ha with hr | hl | ⟨b, hb⟩
    · rcases hown with ho | ho
      · exact absurd (Option.some.inj (hr.symm.trans ho)) hne
      · rw [ho] at hr
        cases hr
    · exact .inr (.inl hl)
    · refine .inr (.inr ⟨b, ?_⟩)
      by_cases heq : b = s
      · subst heq
        rw [hself]
        rcases hstage with hs | ⟨hwas, -⟩
        · rw [hs]
          exact hb
        · rw [hwas] at hb
          cases hb
      · rw [hother b heq]
        exact hb
  · by_cases heq : t = s
    · subst heq
      rw [hself, hremoving] at ht
      cases ht
    · rw [hother t heq] at ht ⊢
      exact h.last t ht

/-- No server crashes, and every request to drain is delivered. -/
def faultless : SharedDeed S P R → Bool
  | .crash _ | .askDrain _ false => false
  | _ => true

theorem HandoverInv.askDrain {w : SharedWorld S P R} (h : HandoverInv w) (s : S) :
    HandoverInv (w.serve (.askDrain s true)) := by
  dsimp only [SharedWorld.serve]
  cases hstage : (w.servers s).stage with
  | absent | waiting | claiming | booting | published | serving | exited => exact h
  | handing prior =>
      cases prior with
      | none =>
          refine h.served rfl rfl (by rw [hstage]; rfl) (by rw [hstage]; nofun) rfl ?_
            (fun _ _ => .rfl) fun a ha => ?_
          · change ServerStage.serving.claims = true ↔ w.claim = some s
            rw [← h.claim s, hstage]
            exact .rfl
          · rw [hstage] at ha
            cases ha
      | some a =>
          dsimp only
          rw [if_pos rfl]
          have hclosed : ∀ server : EnvServer S R,
              ({ server with draining := true } : EnvServer S R).opened = false := by
            intro server
            change (server.stage.up && !true) = false
            rw [Bool.not_true, Bool.and_false]
          have hasked : HandoverInv (w.setServer a { w.servers a with draining := true }) :=
            h.flags rfl rfl rfl rfl (fun ho => absurd ho (by rw [hclosed]; decide)) (h.last a)
          generalize hv : w.setServer a { w.servers a with draining := true } = v at hasked ⊢
          have hstage' : (v.servers s).stage = .handing (some a) := by
            rw [← hv]
            change (Function.update w.servers a _ s).stage = _
            rw [Function.update_apply]
            split
            · next heq =>
                subst heq
                exact hstage
            · exact hstage
          have hdraining : (v.servers a).draining = true := by
            rw [← hv]
            change (Function.update w.servers a _ a).draining = true
            rw [Function.update_self]
          refine hasked.served rfl rfl (by rw [hstage']; rfl) (by rw [hstage']; nofun) rfl ?_
            (fun _ _ => .rfl) fun b hb ho => ?_
          · rw [show (v.setStage s .serving).claim = v.claim from rfl, ← hasked.claim s, hstage']
            exact .rfl
          · rw [hstage'] at hb
            obtain rfl := Option.some.inj hb
            have hopen : ((v.setStage s .serving).servers a).draining = false := by
              have hboth := (Bool.and_eq_true_iff.mp ho).2
              simpa using hboth
            change (Function.update v.servers s _ a).draining = false at hopen
            rw [Function.update_apply] at hopen
            split at hopen
            · next heq =>
                subst heq
                exact absurd (hdraining.symm.trans hopen) (by decide)
            · exact absurd (hdraining.symm.trans hopen) (by decide)

theorem HandoverInv.serve {w : SharedWorld S P R} (h : HandoverInv w) (hown : OwnWithdrawals w)
    {deed : SharedDeed S P R} (hfaultless : faultless deed = true) :
    HandoverInv (w.serve deed) := by
  have hsole : ∀ s t, w.claim = some s → t ≠ s → ((none : Option S) = some t ↔ w.claim = some t) :=
    fun s t hs ht => iff_of_false nofun fun hc => ht (Option.some.inj (hc.symm.trans hs))
  cases deed with
  | crash | spawnLock | spawn | started | swapRead | swapSpawn | watch | watchLock | resolve
  | resolveFails | post | respond | disconnect | appEnds => first | exact h | cases hfaultless
  | askDrain s delivered =>
      cases delivered with
      | true => exact h.askDrain s
      | false => cases hfaultless
  | claim s =>
      dsimp only [SharedWorld.serve]
      split
      · next successor hstage =>
          split
          · next hfree =>
              refine h.boot rfl rfl (by rw [hstage]; rfl) rfl (iff_of_true rfl rfl)
                (fun t ht => ?_) nofun
              rw [hfree]
              exact iff_of_false (fun hc => ht (Option.some.inj hc).symm) nofun
          · exact h
      · exact h
  | readPrior s =>
      dsimp only [SharedWorld.serve]
      split
      · next successor hstage =>
          have hclaims : w.claim = some s := (h.claim s).mp (by rw [hstage]; rfl)
          split
          · exact h.boot rfl rfl (by rw [hstage]; rfl) rfl (iff_of_false nofun nofun)
              (fun t ht => hsole s t hclaims ht) nofun
          · refine h.boot rfl rfl (by rw [hstage]; rfl) rfl (iff_of_true rfl hclaims)
              (fun _ _ => .rfl) fun p hp a ha => ?_
            obtain rfl := ServerStage.booting.inj hp
            have hup := h.named a ha
            rw [SharedWorld.readLiveRecord, ha]
            refine Option.filter_some_pos ?_
            cases hs : (w.servers a).stage with
            | published | handing | serving => rfl
            | absent | waiting | claiming | booting | exited =>
                rw [hs] at hup
                cases hup
      · exact h
  | bootFails s =>
      dsimp only [SharedWorld.serve]
      split
      · next prior hstage =>
          have hclaims : w.claim = some s := (h.claim s).mp (by rw [hstage]; rfl)
          exact h.boot rfl rfl (by rw [hstage]; rfl) rfl (iff_of_false nofun nofun)
            (fun t ht => hsole s t hclaims ht) nofun
      · exact h
  | publish s =>
      dsimp only [SharedWorld.serve]
      split
      · next prior hstage => exact h.publish hstage rfl rfl rfl
      · exact h
  | release s =>
      dsimp only [SharedWorld.serve]
      split
      · next prior hstage =>
          have hclaims : w.claim = some s := (h.claim s).mp (by rw [hstage]; rfl)
          refine h.served rfl rfl (by rw [hstage]; rfl) (by rw [hstage]; nofun) rfl
            (iff_of_false nofun nofun) (fun t ht => hsole s t hclaims ht) fun a ha _ => ?_
          rw [hstage] at ha
          exact ha
      · exact h
  | drained s =>
      dsimp only [SharedWorld.serve]
      split
      · exact h.flags rfl rfl rfl rfl (fun _ => .inl rfl) (h.last s)
      · exact h
  | idle s =>
      dsimp only [SharedWorld.serve]
      split
      · next hidle =>
          refine h.flags rfl rfl rfl ?_ (fun _ => .inl ?_) fun hremoving => ?_
          · split <;> rfl
          · split
            · exact Bool.or_true _
            · rfl
          · split at hremoving
            · cases hremoving
            · exact h.last s hremoving
      · exact h
  | signal s =>
      dsimp only [SharedWorld.serve]
      split
      · exact h.flags rfl rfl rfl rfl (fun _ => .inl rfl) (h.last s)
      · exact h
  | leave s =>
      dsimp only [SharedWorld.serve]
      split
      · next hleave =>
          split
          · exact h.flags rfl rfl rfl rfl (fun _ => .inl (Bool.or_true _)) fun _ => hleave.1
          · next hrecord =>
              refine h.update rfl rfl ?_ (fun _ _ => .rfl) (fun hr => absurd hr hrecord) nofun
                (fun ho => ?_) (fun a ha => ?_) fun hremoving => ?_
              · change ServerStage.exited.claims = true ↔ w.claim = some s
                rw [← h.claim s, hleave.1]
                exact .rfl
              · have hboth : (false && !(w.servers s).draining) = true := ho
                rw [Bool.false_and] at hboth
                cases hboth
              · rw [hleave.1] at ha
                cases ha
              · have hnone : (w.servers s).removing = some .last := hremoving
                rw [hleave.2.2] at hnone
                cases hnone
      · exact h
  | unlink s =>
      dsimp only [SharedWorld.serve]
      split
      · next hremoving =>
          refine h.unlink (hown s ?_) rfl rfl rfl (Bool.and_false _) rfl (.inl rfl)
          rw [hremoving]
          nofun
      · next hremoving =>
          refine h.unlink (hown s ?_) rfl rfl rfl (Bool.false_and _) rfl
            (.inr ⟨h.last s hremoving, rfl⟩)
          rw [hremoving]
          nofun
      · exact h

theorem HandoverInv.exec {w : SharedWorld S P R} (h : HandoverInv w) (hown : OwnWithdrawals w)
    {deed : SharedDeed S P R} (hfaultless : faultless deed = true) :
    HandoverInv (w.exec method maxInflight deed) := by
  have hsame : ∀ v : SharedWorld S P R, v.record = w.record → v.claim = w.claim →
      v.servers = w.servers → HandoverInv v := by
    intro v hrecord hclaim hservers
    refine ⟨?_, ?_, ?_, ?_, ?_⟩ <;> simp only [hrecord, hclaim, hservers]
    · exact h.claim
    · exact h.named
    · exact h.prior
    · exact h.opened
    · exact h.last
  have hstart : HandoverInv (w.start deed) := by
    obtain ⟨hrecord, hclaim, -, -, hservers | ⟨s, successor, habsent, hservers⟩⟩ :=
      w.start_frame deed
    · exact hsame _ hrecord hclaim hservers
    · refine h.boot hservers hrecord (by rw [habsent]; rfl) rfl ?_
        (fun _ _ => by rw [hclaim]) nofun
      rw [hclaim, ← h.claim s, habsent]
      exact .rfl
  have hforward : HandoverInv (w.forward method maxInflight deed) := by
    obtain ⟨hrecord, hclaim, hservers | ⟨s, inFlight, hservers⟩⟩ :=
      forward_frame method maxInflight w deed
    · exact hsame _ hrecord hclaim hservers
    · exact h.flags hservers hrecord hclaim rfl (fun ho => .inr ⟨ho, fun hl => hl⟩) (h.last s)
  unfold SharedWorld.exec
  split <;> first | exact h.serve hown hfaultless | exact hstart | exact hforward

/-! ## Runs -/

/-- No start, drain or exit is in progress. -/
def Quiet (w : SharedWorld S P R) : Prop :=
  ∀ s, (w.servers s).stage = .absent ∨ (w.servers s).stage = .exited ∨
    ((w.servers s).stage = .serving ∧ (w.servers s).draining = false ∧
      (w.servers s).leaving = false)

def RegularSharedStep (method : R → String) (maxInflight : Nat) (w : SharedWorld S P R)
    (deed : SharedDeed S P R) (w' : SharedWorld S P R) : Prop :=
  RegularShared w deed ∧ w' = w.exec method maxInflight deed

theorem HandoverInv.quiet {w : SharedWorld S P R} (h : HandoverInv w) (hquiet : w.Quiet) {s : S}
    (hopened : (w.servers s).opened = true) : w.record = some s := by
  rcases h.opened s hopened with hr | hl | ⟨b, hb⟩
  · exact hr
  · rcases hquiet s with hs | hs | ⟨-, -, hs⟩
    · rw [EnvServer.opened, hs] at hopened
      cases hopened
    · rw [EnvServer.opened, hs] at hopened
      cases hopened
    · rw [hs] at hl
      cases hl
  · rcases hquiet b with hs | hs | ⟨hs, -⟩ <;> rw [hs] at hb <;> cases hb

end SharedWorld

open SharedWorld

end

/-! ### A publication between the read and the unlink -/

open SharedWorld

def handoverExec : SharedWorld (Fin 2) Unit Unit → SharedDeed (Fin 2) Unit Unit →
    SharedWorld (Fin 2) Unit Unit :=
  SharedWorld.exec (fun _ => "tools/call") 64

/-- A proxy starts the first server. -/
def firstServer : List (SharedDeed (Fin 2) Unit Unit) :=
  [.spawnLock (), .spawn () 0, .claim 0, .readPrior 0, .publish 0, .release 0, .askDrain 0 true,
    .started ()]

/-- A hand swap starts another, which comes to publish; by then the first one is idle. -/
def swapped : List (SharedDeed (Fin 2) Unit Unit) :=
  firstServer ++ [.swapRead (), .swapSpawn () 1, .claim 1, .readPrior 1, .idle 0, .publish 1]

section

variable {S P R : Type} [DecidableEq S] [DecidableEq P] [DecidableEq R] {method : R → String}
  {maxInflight : Nat}

/-- Where nothing crashes and every request to drain is delivered, one server at most is between
its claim and its release, and it is the one the claim names; and the record names a server that is
up. -/
theorem one_claim {deeds : List (SharedDeed S P R)} {w : SharedWorld S P R}
    (hrun : Run (RegularSharedStep method maxInflight) {} deeds w)
    (hfaultless : ∀ deed ∈ deeds, faultless deed = true) :
    (∀ s, (w.servers s).stage.claims = true ↔ w.claim = some s) ∧
      ∀ s, w.record = some s → (w.servers s).stage.up = true := by
  have hinv : (∀ deed ∈ deeds, faultless deed = true) → OwnWithdrawals w ∧ HandoverInv w := by
    refine hrun.history_invariant
      (I := fun deeds w =>
        (∀ deed ∈ deeds, faultless deed = true) → OwnWithdrawals w ∧ HandoverInv w)
      (fun _ => ⟨fun _ ht => absurd rfl ht, ?_⟩)
      fun deeds w deed w' _ h ⟨hregular, hstep⟩ hall => ?_
    · exact ⟨fun _ => iff_of_false nofun nofun, nofun, nofun, nofun, nofun⟩
    · obtain ⟨hown, hinv⟩ := h fun d hd => hall d (List.mem_append_left _ hd)
      rw [hstep]
      exact ⟨hown.exec hregular, hinv.exec hown (hall deed (by simp))⟩
  exact ⟨(hinv hfaultless).2.claim, (hinv hfaultless).2.named⟩

end

theorem one_claim_sample : ((firstServer.take 3).foldl handoverExec {}).claim = some 0 := by
  have hrun : Run (RegularSharedStep (fun _ => "tools/call") 64) {} (firstServer.take 3)
      ((firstServer.take 3).foldl handoverExec {}) :=
    ((Run.nil.snoc ⟨trivial, rfl⟩).snoc ⟨trivial, rfl⟩).snoc ⟨trivial, rfl⟩
  exact ((one_claim hrun (by decide)).1 0).mp (by decide +kernel)

end TrwMcp.SharedServer

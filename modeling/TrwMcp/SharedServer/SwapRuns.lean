import TrwMcp.SharedServer.Swap
import Mathlib.Data.List.Infix
import Mathlib.Data.List.Induction

/-!
# The records of swapped envs

A swap that writes a map back has every other env in it as it read it, and its two writes are two.
As long as nothing of another env changed in between, and nobody meets the record of one swap
beside the record of another, every env keeps the pair of its own last swap.
-/

namespace TrwMcp.SharedServer

open TrwMcp.Lib

/-! ## The edits -/

theorem lookup_editMapping (call : SwapCall) (mapping : Dict String String) (env : String) :
    Dict.lookup (call.editMapping mapping) env =
      if env = call.env then some call.python else Dict.lookup mapping env :=
  Dict.lookup_set mapping call.env env call.python

theorem lookup_pop (sources : Dict String String) (popped env : String) :
    Dict.lookup (sources.filter (·.1 ≠ popped)) env =
      if env = popped then none else Dict.lookup sources env := by
  induction sources with
  | nil => simp
  | cons m sources ih =>
      obtain ⟨l, v⟩ := m
      rw [List.filter_cons, Dict.lookup_cons]
      by_cases hl : l = popped
      · subst hl
        simp only [ne_eq, not_true, decide_false, Bool.false_eq_true, if_false, ih]
        by_cases henv : env = l
        · rw [if_pos henv, if_pos henv]
        · rw [if_neg henv, if_neg henv, if_neg (Ne.symm henv)]
      · simp only [ne_eq, hl, not_false_eq_true, decide_true, if_true, Dict.lookup_cons, ih]
        by_cases henv : env = popped
        · rw [if_pos henv, if_pos henv, if_neg fun heq => hl (heq.trans henv)]
        · rw [if_neg henv, if_neg henv]

theorem lookup_editSources (call : SwapCall) (sources : Dict String String) (env : String) :
    Dict.lookup (call.editSources sources) env =
      if env = call.env then call.source else Dict.lookup sources env := by
  unfold SwapCall.editSources
  cases h : call.source with
  | none => exact lookup_pop sources call.env env
  | some pythonpath => exact Dict.lookup_set sources call.env env pythonpath

theorem SwapCall.source_filter (call : SwapCall) : call.source.filter (· ≠ "") = call.source := by
  unfold SwapCall.source
  rw [Option.filter_filter]
  simp

namespace SwapStage

/-- The swap has made its first write, or crashed. -/
def wrote : SwapStage → Option SwapCall
  | .sourcesWritten call | .mappingRead call _ | .returned call | .crashed call => some call
  | _ => none

theorem running_of_between {stage : SwapStage} (h : stage.between.isSome = true) :
    stage.running = true := by
  cases stage <;> first | rfl | cases h

theorem wrote_of_between {stage : SwapStage} {call : SwapCall} (h : stage.between = some call) :
    stage.wrote = some call := by
  cases stage <;> first | exact h | cases h

end SwapStage

namespace SwapWorld

variable {W P : Type} {executable : String}

/-- The interpreter is the one that `writer` recorded for the env, or the default. -/
def Recorded (executable : String) (world : SwapWorld W P) (env python : String) :
    Option W → Prop
  | none => defaultPython executable env = some python
  | some w => ∃ call, world.swaps w = .returned call ∧ call.env = env ∧ call.python = python

/-- The two are what one swap recorded for the env, or the default. -/
def OnePair (executable : String) (world : SwapWorld W P) (env python : String)
    (pythonpath : Option String) : Prop :=
  (∃ w call, world.swaps w = .returned call ∧ call.env = env ∧ call.python = python ∧
    call.source = pythonpath) ∨
  defaultPython executable env = some python ∧ pythonpath = none

/-- Each entry is the one of the swap that wrote it last, and the two last writers of an env are one
swap, or the one that wrote its source is still to write its interpreter. -/
structure SwapInv (executable : String) (world : SwapWorld W P) : Prop where
  sourcesNone : ∀ env, world.sourcesBy env = none → Dict.lookup world.sources env = none
  sourcesSome : ∀ env w, world.sourcesBy env = some w → ∃ call,
    (world.swaps w).wrote = some call ∧ call.env = env ∧
      Dict.lookup world.sources env = call.source
  mappingNone : ∀ env, world.mappingBy env = none → Dict.lookup world.mapping env = none
  mappingSome : ∀ env w, world.mappingBy env = some w → ∃ call,
    world.swaps w = .returned call ∧ call.env = env ∧
      Dict.lookup world.mapping env = some call.python
  known : ∀ w call, (world.swaps w).between = some call → world.sourcesBy call.env ≠ none
  settled : ∀ env, world.sourcesBy env = world.mappingBy env ∨
    ∃ w, world.sourcesBy env = some w ∧ (world.swaps w).between.isSome = true
  reading : ∀ p env python writer, world.starts p = .pythonRead env python writer →
    world.Recorded executable env python writer
  started : ∀ p env python pythonpath, world.starts p = .started env python pythonpath →
    world.OnePair executable env python pythonpath

theorem SwapInv.initial : SwapInv executable ({} : SwapWorld W P) :=
  ⟨fun _ _ => rfl, nofun, fun _ _ => rfl, nofun, nofun, fun _ => .inl rfl, nofun, nofun⟩

section

variable {world world' : SwapWorld W P}

theorem Recorded.mono (hreturned : ∀ w call, world.swaps w = .returned call →
    world'.swaps w = .returned call) {env python : String} {writer : Option W}
    (h : world.Recorded executable env python writer) :
    world'.Recorded executable env python writer := by
  cases writer with
  | none => exact h
  | some w =>
      obtain ⟨call, hcall, hrest⟩ := h
      exact ⟨call, hreturned w call hcall, hrest⟩

theorem OnePair.mono (hreturned : ∀ w call, world.swaps w = .returned call →
    world'.swaps w = .returned call) {env python : String} {pythonpath : Option String}
    (h : world.OnePair executable env python pythonpath) :
    world'.OnePair executable env python pythonpath := by
  rcases h with ⟨w, call, hcall, hrest⟩ | hdefault
  · exact .inl ⟨w, call, hreturned w call hcall, hrest⟩
  · exact .inr hdefault

variable [DecidableEq W] [DecidableEq P]

omit [DecidableEq P] in
theorem returned_setSwap {w : W} {stage : SwapStage}
    (hrunning : ∀ call, world.swaps w ≠ .returned call) {v : W} {call : SwapCall}
    (h : world.swaps v = .returned call) :
    Function.update world.swaps w stage v = .returned call := by
  rwa [Function.update_of_ne]
  rintro rfl
  exact hrunning call h

omit [DecidableEq P] in
theorem SwapInv.setSwap (h : SwapInv executable world) {w : W} {stage : SwapStage}
    (hrunning : ∀ call, world.swaps w ≠ .returned call)
    (hwrote : ∀ call, (world.swaps w).wrote = some call → stage.wrote = some call)
    (hbetween : ∀ call, stage.between = some call → (world.swaps w).between = some call)
    (hleft : ∀ call, (world.swaps w).between = some call →
      stage.between.isSome = true ∨ world.sourcesBy call.env ≠ some w) :
    SwapInv executable (world.setSwap w stage) where
  sourcesNone := h.sourcesNone
  sourcesSome env v hv := by
    obtain ⟨call, hcall, hrest⟩ := h.sourcesSome env v hv
    refine ⟨call, ?_, hrest⟩
    dsimp only [SwapWorld.setSwap]
    rw [Function.update_apply]
    split
    · next heq => exact hwrote call (heq ▸ hcall)
    · exact hcall
  mappingNone := h.mappingNone
  mappingSome env v hv := by
    obtain ⟨call, hcall, hrest⟩ := h.mappingSome env v hv
    exact ⟨call, returned_setSwap hrunning hcall, hrest⟩
  known v call hv := by
    dsimp only [SwapWorld.setSwap] at hv
    rw [Function.update_apply] at hv
    split at hv
    · exact h.known w call (hbetween call hv)
    · exact h.known v call hv
  settled env := by
    refine (h.settled env).imp_right fun ⟨v, hv, hvbetween⟩ => ⟨v, hv, ?_⟩
    dsimp only [SwapWorld.setSwap]
    rw [Function.update_apply]
    split
    · next heq =>
        subst heq
        obtain ⟨call, hcall⟩ := Option.isSome_iff_exists.mp hvbetween
        obtain ⟨call', hcall', henv, -⟩ := h.sourcesSome env v hv
        rw [SwapStage.wrote_of_between hcall] at hcall'
        obtain rfl := Option.some.inj hcall'
        exact (hleft call hcall).resolve_right fun hne => hne (henv ▸ hv)
    · exact hvbetween
  reading p env python writer hp :=
    (h.reading p env python writer hp).mono fun _ _ => returned_setSwap hrunning
  started p env python pythonpath hp :=
    (h.started p env python pythonpath hp).mono fun _ _ => returned_setSwap hrunning

omit [DecidableEq W] in
theorem SwapInv.setStart (h : SwapInv executable world) {p : P} {stage : StartStage W}
    (hreading : ∀ env python writer, stage = .pythonRead env python writer →
      world.Recorded executable env python writer)
    (hstarted : ∀ env python pythonpath, stage = .started env python pythonpath →
      world.OnePair executable env python pythonpath) :
    SwapInv executable (world.setStart p stage) where
  sourcesNone := h.sourcesNone
  sourcesSome := h.sourcesSome
  mappingNone := h.mappingNone
  mappingSome := h.mappingSome
  known := h.known
  settled := h.settled
  reading q env python writer hq := by
    dsimp only [SwapWorld.setStart] at hq
    rw [Function.update_apply] at hq
    split at hq
    · exact hreading env python writer hq
    · exact h.reading q env python writer hq
  started q env python pythonpath hq := by
    dsimp only [SwapWorld.setStart] at hq
    rw [Function.update_apply] at hq
    split at hq
    · exact hstarted env python pythonpath hq
    · exact h.started q env python pythonpath hq

end

/-! ## Deeds that keep the records apart -/

/-- A map is written back only where no other env has changed in it since it was read; an
interpreter only where the last writer of the source of the env is the swap itself or is still to
write its own interpreter; the last writer of a source does not crash before that; and a server
start reads the source of the very swap whose interpreter it has read. -/
def OrderlySwap (world : SwapWorld W P) : SwapDeed W P → Prop
  | .writeSources w => ∀ call sources, world.swaps w = .sourcesRead call sources →
      ∀ env, env ≠ call.env → Dict.lookup sources env = Dict.lookup world.sources env
  | .writeMapping w => ∀ call mapping, world.swaps w = .mappingRead call mapping →
      (∀ env, env ≠ call.env → Dict.lookup mapping env = Dict.lookup world.mapping env) ∧
        ∀ v, world.sourcesBy call.env = some v → v = w ∨ (world.swaps v).between.isSome = true
  | .crash w => ∀ call, (world.swaps w).between = some call → world.sourcesBy call.env ≠ some w
  | .readPythonpath p => ∀ env python writer, world.starts p = .pythonRead env python writer →
      world.sourcesBy env = writer
  | _ => True

section

variable [DecidableEq W] [DecidableEq P] {world : SwapWorld W P}

omit [DecidableEq W] [DecidableEq P] in
theorem SwapInv.envPython (h : SwapInv executable world) (env : String) :
    envPython executable world.mapping env = none ∧ world.mappingBy env = none ∨
      ∃ python, SharedServer.envPython executable world.mapping env = some python ∧
        world.Recorded executable env python (world.mappingBy env) := by
  cases hby : world.mappingBy env with
  | none =>
      unfold SharedServer.envPython
      rw [h.mappingNone env hby, Option.filter_none]
      dsimp only
      cases hdefault : defaultPython executable env with
      | none => exact .inl ⟨rfl, rfl⟩
      | some python => exact .inr ⟨python, rfl, hdefault⟩
  | some w =>
      obtain ⟨call, hcall, henv, hlookup⟩ := h.mappingSome env w hby
      refine .inr ⟨call.python, ?_, call, hcall, henv, rfl⟩
      unfold SharedServer.envPython
      rw [hlookup, Option.filter_some, if_pos (by simpa using call.named)]

omit [DecidableEq W] [DecidableEq P] in
theorem SwapInv.envPythonpath (h : SwapInv executable world) (env : String) :
    envPythonpath world.sources env = none ∧ world.sourcesBy env = none ∨
      ∃ w call, world.sourcesBy env = some w ∧ (world.swaps w).wrote = some call ∧
        call.env = env ∧ SharedServer.envPythonpath world.sources env = call.source := by
  unfold SharedServer.envPythonpath
  cases hby : world.sourcesBy env with
  | none => exact .inl ⟨by rw [h.sourcesNone env hby]; rfl, rfl⟩
  | some w =>
      obtain ⟨call, hcall, henv, hlookup⟩ := h.sourcesSome env w hby
      exact .inr ⟨w, call, rfl, hcall, henv, by rw [hlookup, call.source_filter]⟩

omit [DecidableEq P] in
theorem SwapInv.writeSources (h : SwapInv executable world) {w : W} {call : SwapCall}
    {sources : Dict String String} (hstage : world.swaps w = .sourcesRead call sources)
    (hfresh : ∀ env, env ≠ call.env →
      Dict.lookup sources env = Dict.lookup world.sources env) :
    SwapInv executable
      { world.setSwap w (.sourcesWritten call) with
        sources := call.editSources sources
        sourcesBy := Function.update world.sourcesBy call.env (some w) } := by
  have hrunning : ∀ c, world.swaps w ≠ .returned c := fun c hc => nomatch hstage.symm.trans hc
  have hswaps : ∀ v, v ≠ w →
      Function.update world.swaps w (SwapStage.sourcesWritten call) v = world.swaps v :=
    fun v hv => Function.update_of_ne hv ..
  constructor
  case sourcesNone =>
    intro env hby
    dsimp only [SwapWorld.setSwap] at hby ⊢
    by_cases henv : env = call.env
    · rw [henv, Function.update_self] at hby
      cases hby
    · rw [Function.update_of_ne henv] at hby
      rw [lookup_editSources, if_neg henv, hfresh env henv]
      exact h.sourcesNone env hby
  case sourcesSome =>
    intro env v hby
    dsimp only [SwapWorld.setSwap] at hby ⊢
    by_cases henv : env = call.env
    · rw [henv, Function.update_self] at hby
      obtain rfl := Option.some.inj hby
      refine ⟨call, ?_, henv.symm, ?_⟩
      · rw [Function.update_self]
        rfl
      · rw [lookup_editSources, if_pos henv]
    · rw [Function.update_of_ne henv] at hby
      obtain ⟨c, hc, hcenv, hlookup⟩ := h.sourcesSome env v hby
      refine ⟨c, ?_, hcenv, ?_⟩
      · rw [hswaps v fun heq => ?_]
        · exact hc
        · rw [heq, hstage] at hc
          cases hc
      · rw [lookup_editSources, if_neg henv, hfresh env henv, hlookup]
  case mappingNone => exact h.mappingNone
  case mappingSome =>
    intro env v hby
    obtain ⟨c, hc, hrest⟩ := h.mappingSome env v hby
    exact ⟨c, returned_setSwap hrunning hc, hrest⟩
  case known =>
    intro v c hv
    dsimp only [SwapWorld.setSwap] at hv ⊢
    by_cases henv : c.env = call.env
    · rw [henv, Function.update_self]
      nofun
    · rw [Function.update_of_ne henv]
      refine h.known v c ?_
      rw [← hswaps v fun heq => ?_]
      · exact hv
      · rw [heq, Function.update_self] at hv
        exact henv (congrArg SwapCall.env (Option.some.inj hv).symm)
  case settled =>
    intro env
    dsimp only [SwapWorld.setSwap]
    by_cases henv : env = call.env
    · refine .inr ⟨w, ?_, ?_⟩
      · rw [henv, Function.update_self]
      · rw [Function.update_self]
        rfl
    · rw [Function.update_of_ne henv]
      refine (h.settled env).imp_right fun ⟨v, hv, hbetween⟩ => ⟨v, hv, ?_⟩
      rw [hswaps v fun heq => ?_]
      · exact hbetween
      · rw [heq, hstage] at hbetween
        cases hbetween
  case reading =>
    intro p env python writer hp
    exact (h.reading p env python writer hp).mono fun _ _ => returned_setSwap hrunning
  case started =>
    intro p env python pythonpath hp
    exact (h.started p env python pythonpath hp).mono fun _ _ => returned_setSwap hrunning

omit [DecidableEq P] in
theorem SwapInv.writeMapping (h : SwapInv executable world) {w : W} {call : SwapCall}
    {mapping : Dict String String} (hstage : world.swaps w = .mappingRead call mapping)
    (hfresh : ∀ env, env ≠ call.env →
      Dict.lookup mapping env = Dict.lookup world.mapping env)
    (hlast : ∀ v, world.sourcesBy call.env = some v →
      v = w ∨ (world.swaps v).between.isSome = true) :
    SwapInv executable
      { world.setSwap w (.returned call) with
        mapping := call.editMapping mapping
        mappingBy := Function.update world.mappingBy call.env (some w) } := by
  have hrunning : ∀ c, world.swaps w ≠ .returned c := fun c hc => nomatch hstage.symm.trans hc
  have hswaps : ∀ v, v ≠ w →
      Function.update world.swaps w (SwapStage.returned call) v = world.swaps v :=
    fun v hv => Function.update_of_ne hv ..
  constructor
  case sourcesNone => exact h.sourcesNone
  case sourcesSome =>
    intro env v hby
    obtain ⟨c, hc, hrest⟩ := h.sourcesSome env v hby
    refine ⟨c, ?_, hrest⟩
    dsimp only [SwapWorld.setSwap]
    rw [Function.update_apply]
    split
    · next heq =>
        rw [heq, hstage] at hc
        exact hc
    · exact hc
  case mappingNone =>
    intro env hby
    dsimp only [SwapWorld.setSwap] at hby ⊢
    by_cases henv : env = call.env
    · rw [henv, Function.update_self] at hby
      cases hby
    · rw [Function.update_of_ne henv] at hby
      rw [lookup_editMapping, if_neg henv, hfresh env henv]
      exact h.mappingNone env hby
  case mappingSome =>
    intro env v hby
    dsimp only [SwapWorld.setSwap] at hby ⊢
    by_cases henv : env = call.env
    · rw [henv, Function.update_self] at hby
      obtain rfl := Option.some.inj hby
      refine ⟨call, ?_, henv.symm, ?_⟩
      · rw [Function.update_self]
      · rw [lookup_editMapping, if_pos henv]
    · rw [Function.update_of_ne henv] at hby
      obtain ⟨c, hc, hcenv, hlookup⟩ := h.mappingSome env v hby
      refine ⟨c, returned_setSwap hrunning hc, hcenv, ?_⟩
      rw [lookup_editMapping, if_neg henv, hfresh env henv, hlookup]
  case known =>
    intro v c hv
    dsimp only [SwapWorld.setSwap] at hv ⊢
    refine h.known v c ?_
    rw [← hswaps v fun heq => ?_]
    · exact hv
    · rw [heq, Function.update_self] at hv
      cases hv
  case settled =>
    intro env
    dsimp only [SwapWorld.setSwap]
    -- one that is between its writes and is not this swap stays there
    have hstays : ∀ v, v ≠ w → (world.swaps v).between.isSome = true →
        (Function.update world.swaps w (.returned call) v).between.isSome = true := by
      intro v hv hbetween
      rwa [hswaps v hv]
    by_cases henv : env = call.env
    · rw [henv, Function.update_self]
      cases hby : world.sourcesBy call.env with
      | none => exact absurd hby (h.known w call (by rw [hstage]; rfl))
      | some v =>
          by_cases hv : v = w
          · exact .inl (by rw [hv])
          · exact .inr ⟨v, rfl, hstays v hv ((hlast v hby).resolve_left hv)⟩
    · rw [Function.update_of_ne henv]
      rcases h.settled env with hsame | ⟨v, hv, hbetween⟩
      · exact .inl hsame
      · refine .inr ⟨v, hv, hstays v (fun heq => henv ?_) hbetween⟩
        obtain ⟨c, hc, hcenv, -⟩ := h.sourcesSome env v hv
        rw [heq, hstage] at hc
        rw [← hcenv, ← Option.some.inj hc]
  case reading =>
    intro p env python writer hp
    exact (h.reading p env python writer hp).mono fun _ _ => returned_setSwap hrunning
  case started =>
    intro p env python pythonpath hp
    exact (h.started p env python pythonpath hp).mono fun _ _ => returned_setSwap hrunning

theorem SwapInv.exec (h : SwapInv executable world) {deed : SwapDeed W P}
    (hdeed : OrderlySwap world deed) : SwapInv executable (world.exec executable deed) := by
  cases deed with
  | swap w call =>
      rw [SwapWorld.exec]
      split
      · next hstage =>
          refine h.setSwap (fun c hc => absurd (hstage.symm.trans hc) (by simp)) (fun c hc => ?_)
            (fun _ hc => by cases hc) fun c hc => ?_
          · rw [hstage] at hc
            cases hc
          · rw [hstage] at hc
            cases hc
      · exact h
  | readSources w =>
      rw [SwapWorld.exec]
      split
      · next call hstage =>
          refine h.setSwap (fun c hc => absurd (hstage.symm.trans hc) (by simp)) (fun c hc => ?_)
            (fun _ hc => by cases hc) fun c hc => ?_
          · rw [hstage] at hc
            cases hc
          · rw [hstage] at hc
            cases hc
      · exact h
  | writeSources w =>
      rw [SwapWorld.exec]
      split
      · next call sources hstage => exact h.writeSources hstage (hdeed call sources hstage)
      · exact h
  | readMapping w =>
      rw [SwapWorld.exec]
      split
      · next call hstage =>
          refine h.setSwap (fun c hc => absurd (hstage.symm.trans hc) (by simp)) (fun c hc => ?_)
            (fun c hc => ?_) fun c hc => .inl rfl
          · rw [hstage] at hc
            exact hc
          · rw [hstage]
            exact hc
      · exact h
  | writeMapping w =>
      rw [SwapWorld.exec]
      split
      · next call mapping hstage =>
          obtain ⟨hfresh, hlast⟩ := hdeed call mapping hstage
          exact h.writeMapping hstage hfresh hlast
      · exact h
  | crash w =>
      rw [SwapWorld.exec]
      have hcrash : ∀ call, (∀ c, world.swaps w ≠ .returned c) →
          (∀ c, (world.swaps w).wrote = some c → c = call) →
          SwapInv executable (world.setSwap w (.crashed call)) := fun call hrunning hwrote =>
        h.setSwap hrunning (fun c hc => by rw [hwrote c hc]; rfl) (fun _ hc => by cases hc)
          fun c hc => .inr (hdeed c hc)
      split
      case h_5 => exact h
      all_goals
        next hstage =>
          refine hcrash _ (fun c hc => absurd (hstage.symm.trans hc) (by simp)) fun c hc => ?_
          rw [hstage] at hc
          cases hc <;> rfl
  | start p env =>
      rw [SwapWorld.exec]
      split
      · exact h.setStart (by simp) (by simp)
      · exact h
  | readPython p =>
      rw [SwapWorld.exec]
      split
      · next env hstage =>
          split
          · next python hpython =>
              refine h.setStart (fun env' python' writer heq => ?_) (by simp)
              cases heq
              rcases h.envPython env with ⟨hnone, -⟩ | ⟨python', hsome, hrecorded⟩
              · cases hnone.symm.trans hpython
              · obtain rfl := Option.some.inj (hsome.symm.trans hpython)
                exact hrecorded
          · exact h.setStart (by simp) (by simp)
      · exact h
  | readPythonpath p =>
      rw [SwapWorld.exec]
      split
      · next env python writer hstage =>
          refine h.setStart (by simp) fun env' python' pythonpath heq => ?_
          cases heq
          have hrecorded := h.reading p env python writer hstage
          rw [← hdeed env python writer hstage] at hrecorded
          rcases h.envPythonpath env with ⟨hnone, hby⟩ | ⟨w, call, hby, hcall, -, hsource⟩
          · rw [hby] at hrecorded
            exact .inr ⟨hrecorded, hnone⟩
          · rw [hby] at hrecorded
            obtain ⟨call', hcall', henv, hpython⟩ := hrecorded
            rw [hcall'] at hcall
            obtain rfl := Option.some.inj hcall
            exact .inl ⟨w, call', hcall', henv, hpython, hsource.symm⟩
      · exact h

theorem pair_exec {deed : SwapDeed W P} (hdeed : OrderlySwap world deed) {env : String}
    (henv : world.writes deed ≠ some env) :
    (world.exec executable deed).pair executable env = world.pair executable env := by
  cases deed with
  | writeSources w =>
      rw [SwapWorld.exec]
      rw [writes] at henv
      split
      · next call sources hstage =>
          rw [hstage] at henv
          have hne : env ≠ call.env := fun heq => henv (by rw [heq])
          unfold pair SharedServer.envPythonpath
          rw [lookup_editSources, if_neg hne, hdeed call sources hstage env hne]
          rfl
      · rfl
  | writeMapping w =>
      rw [SwapWorld.exec]
      rw [writes] at henv
      split
      · next call mapping hstage =>
          rw [hstage] at henv
          have hne : env ≠ call.env := fun heq => henv (by rw [heq])
          unfold pair SharedServer.envPython
          rw [lookup_editMapping, if_neg hne, (hdeed call mapping hstage).1 env hne]
          rfl
      · rfl
  | swap w call | readSources w | readMapping w | crash w | start p env | readPython p
  | readPythonpath p =>
      rw [SwapWorld.exec]
      repeat' split
      all_goals rfl

end

/-! ## Runs -/

section

variable [DecidableEq W] [DecidableEq P]

/-- The world after the deeds. -/
def after (executable : String) (deeds : List (SwapDeed W P)) : SwapWorld W P :=
  deeds.foldl (SwapWorld.exec executable) {}

/-- In the state after the run, a server start has read what one swap of its env recorded, or the
default; when every swap is done, an env has the pair of the swap of it that returned last, or the
default; and on the way no write changed the pair of another env. -/
structure IndependentSwaps (executable : String) (deeds : List (SwapDeed W P)) : Prop where
  started : ∀ p env python pythonpath,
    (after executable deeds).starts p = .started env python pythonpath →
      (after executable deeds).OnePair executable env python pythonpath
  last : (after executable deeds).SwapsDone → ∀ env w,
    (after executable deeds).mappingBy env = some w → ∃ call,
      (after executable deeds).swaps w = .returned call ∧ call.env = env ∧
        (after executable deeds).pair executable env = (some call.python, call.source)
  default : (after executable deeds).SwapsDone → ∀ env,
    (after executable deeds).mappingBy env = none →
      (after executable deeds).pair executable env = (defaultPython executable env, none)
  apart : ∀ before deed, before ++ [deed] <+: deeds → ∀ env,
    (after executable before).writes deed ≠ some env →
      (after executable (before ++ [deed])).pair executable env =
        (after executable before).pair executable env

/-- Every deed of the run keeps the records apart. -/
def OrderlySwaps (executable : String) (deeds : List (SwapDeed W P)) : Prop :=
  ∀ before deed, before ++ [deed] <+: deeds → OrderlySwap (after executable before) deed

theorem after_snoc (deeds : List (SwapDeed W P)) (deed : SwapDeed W P) :
    after executable (deeds ++ [deed]) = (after executable deeds).exec executable deed := by
  rw [after, List.foldl_append]
  rfl

theorem SwapInv.after {deeds : List (SwapDeed W P)} (h : OrderlySwaps executable deeds) :
    SwapInv executable (after executable deeds) := by
  induction deeds using List.reverseRecOn with
  | nil => exact .initial
  | append_singleton deeds deed ih =>
      rw [after_snoc]
      refine (ih fun before d hpre => ?_).exec (h deeds deed List.prefix_rfl)
      exact h before d (hpre.trans (List.prefix_append deeds [deed]))

theorem OrderlySwaps.nil : OrderlySwaps executable ([] : List (SwapDeed W P)) := by
  intro before deed hpre
  rw [List.prefix_nil] at hpre
  exact absurd hpre (List.append_ne_nil_of_right_ne_nil before (List.cons_ne_nil deed []))

theorem OrderlySwaps.snoc {deeds : List (SwapDeed W P)} (h : OrderlySwaps executable deeds)
    {deed : SwapDeed W P} (hdeed : OrderlySwap (SwapWorld.after executable deeds) deed) :
    OrderlySwaps executable (deeds ++ [deed]) := by
  intro before d hpre
  rcases List.prefix_concat_iff.mp hpre with heq | hpre
  · obtain ⟨rfl, hd⟩ := List.append_inj' heq rfl
    obtain rfl := List.singleton_inj.mp hd
    exact hdeed
  · exact h before d hpre

omit [DecidableEq W] [DecidableEq P] in
theorem SwapInv.whole {world : SwapWorld W P} (h : SwapInv executable world)
    (hdone : world.SwapsDone) (env : String) : world.sourcesBy env = world.mappingBy env := by
  refine (h.settled env).resolve_right fun ⟨w, _, hbetween⟩ => ?_
  have hrunning := SwapStage.running_of_between hbetween
  rw [hdone w] at hrunning
  cases hrunning

end

end SwapWorld

open SwapWorld

variable {W P : Type} [DecidableEq W] [DecidableEq P]

def devSwap : SwapCall := ⟨"dev", "/dev/bin/python", none, by decide⟩

def betaSwap : SwapCall := ⟨"beta", "/beta/bin/python", some "/beta/src", by decide⟩

/-- One swap, and then a server start. -/
def swapThenStart : List (SwapDeed Bool Unit) :=
  [.swap false betaSwap, .readSources false, .writeSources false, .readMapping false,
    .writeMapping false, .start () "beta", .readPython (), .readPythonpath ()]

/-- Both swaps read `envs.json` before either writes it. -/
def lostSwap : List (SwapDeed Bool Unit) :=
  [.swap false devSwap, .swap true betaSwap, .readSources false, .writeSources false,
    .readSources true, .writeSources true, .readMapping false, .readMapping true,
    .writeMapping false, .writeMapping true]

/-- A server start while the second swap of `beta` is between its writes. -/
def tornStart : List (SwapDeed Bool Unit) :=
  [.swap false ⟨"beta", "/old/bin/python", none, by decide⟩, .readSources false,
    .writeSources false, .readMapping false, .writeMapping false, .swap true betaSwap,
    .readSources true, .writeSources true, .start () "beta", .readPython (), .readPythonpath ()]

end TrwMcp.SharedServer

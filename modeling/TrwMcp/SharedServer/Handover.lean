import Mathlib.Data.List.Basic
import Mathlib.Logic.Function.Basic

/-!
# The handover of a shared server

The servers of one env hand its record on to each other: a successor publishes under the claim lock
and then asks its predecessor to drain, and on its way out a server removes the record if that still
names it. Proxies, swaps and watchers start servers, and proxies pass requests to the one they read
in the record.
-/

namespace TrwMcp.SharedServer

/-! ## Servers -/

inductive ServerStage (S : Type) where
  | absent
  /-- for the claim lock -/
  | waiting (successor : Bool)
  | claiming (successor : Bool)
  /-- the record was read -/
  | booting (prior : Option S)
  /-- the claim lock is still held -/
  | published (prior : Option S)
  /-- the predecessor is still to be asked to drain -/
  | handing (prior : Option S)
  | serving
  | exited
  deriving DecidableEq

/-- What `withdraw_record` was called for. -/
inductive Withdrawal where
  | idle
  | last
  deriving DecidableEq

/-- A server with its door: whether that drains, and the requests in flight. While a withdrawal is
between its read and its unlink the server does nothing else. -/
structure EnvServer (S R : Type) where
  stage : ServerStage S := .absent
  draining : Bool := false
  inFlight : List R := []
  shouldExit : Bool := false
  removing : Option Withdrawal := none

def ServerStage.live {S : Type} : ServerStage S → Bool
  | .absent | .exited => false
  | _ => true

/-- The server holds the claim lock. -/
def ServerStage.claims {S : Type} : ServerStage S → Bool
  | .claiming _ | .booting _ | .published _ => true
  | _ => false

/-- The server has published, and has not exited. -/
def ServerStage.up {S : Type} : ServerStage S → Bool
  | .published _ | .handing _ | .serving => true
  | _ => false

inductive DoorReply where
  | token
  | draining
  | noSession
  | busy
  | admitted
  deriving DecidableEq

/-- `Door.__call__` with `Door.admit` -/
def EnvServer.admission {S R : Type} (server : EnvServer S R) (maxInflight : Nat)
    (keysMatch session : Bool) : DoorReply :=
  if !keysMatch then .token
  else if server.draining then .draining
  else if !session then .noSession
  else if maxInflight ≤ server.inFlight.length then .busy
  else .admitted

/-! ## Requests -/

/-- `_READ_ONLY` -/
def readOnlyMethods : List String :=
  ["initialize", "ping", "tools/list", "resources/list", "resources/templates/list",
    "resources/read", "prompts/list"]

inductive ProxyAnswer where
  | result
  | unavailable
  /-- `_gave_up` -/
  | notApplied
  /-- `_lost` -/
  | unknownOutcome
  deriving DecidableEq

/-- Where `Proxy.forward` stands with a request. -/
inductive ForwardStage (S : Type) where
  | ready
  | resolved (server : S)
  | passed (server : S)
  | answered (answer : ProxyAnswer)
  deriving DecidableEq

/-- What becomes of a request that is posted. A connect error is raised only when nothing was
sent. -/
inductive PostFate where
  | unreachable
  | lost
  | arrives (keysMatch session : Bool)

/-! ## Those that start servers -/

/-- A proxy, a hand swap, or the watcher of a server. -/
inductive StarterStage (S : Type) where
  | idle
  /-- a proxy with the spawn lock -/
  | locked
  /-- with a server of its own, and the lock -/
  | starting (server : S)
  /-- a hand swap that has read the record -/
  | swapping (old : S)
  /-- a watcher that probes -/
  | probing (own : S)
  /-- a watcher with the spawn lock -/
  | rechecking (own : S)
  deriving DecidableEq

/-! ## The env -/

/-- What was passed to an app is kept by nothing. -/
structure SharedWorld (S P R : Type) where
  record : Option S := none
  claim : Option S := none
  spawnLock : Option P := none
  servers : S → EnvServer S R := fun _ => {}
  starters : P → StarterStage S := fun _ => .idle
  requests : R → ForwardStage S := fun _ => .ready
  applied : List (S × R) := []

inductive SharedDeed (S P R : Type) where
  | claim (s : S)
  | readPrior (s : S)
  | bootFails (s : S)
  | publish (s : S)
  | release (s : S)
  | askDrain (s : S) (delivered : Bool)
  /-- nothing is in flight, or the wait is over -/
  | drained (s : S)
  /-- `_watch_idle` finds the server idle, and `withdraw_record` reads -/
  | idle (s : S)
  | signal (s : S)
  /-- `withdraw_record` on the way out reads -/
  | leave (s : S)
  | unlink (s : S)
  | crash (s : S)
  | spawnLock (p : P)
  /-- under the lock: the record names a live server, or one is spawned -/
  | spawn (p : P) (s : S)
  /-- the wait for its record ends, by that or by a refusal -/
  | started (p : P)
  | swapRead (p : P)
  | swapSpawn (p : P) (s : S)
  | watch (p : P) (own : S)
  | watchLock (p : P)
  | resolve (r : R)
  | resolveFails (r : R)
  | post (r : R) (fate : PostFate) (gaveUp : Bool)
  | respond (r : R) (ok : Bool)
  | disconnect (r : R) (gaveUp : Bool)
  | appEnds (s : S) (r : R)

section

variable {S P R : Type} [DecidableEq S] [DecidableEq P] [DecidableEq R]

namespace SharedWorld

def setServer (w : SharedWorld S P R) (s : S) (server : EnvServer S R) : SharedWorld S P R :=
  { w with servers := Function.update w.servers s server }

def setStage (w : SharedWorld S P R) (s : S) (stage : ServerStage S) : SharedWorld S P R :=
  w.setServer s { w.servers s with stage }

def setStarter (w : SharedWorld S P R) (p : P) (stage : StarterStage S) : SharedWorld S P R :=
  { w with starters := Function.update w.starters p stage }

def setRequest (w : SharedWorld S P R) (r : R) (stage : ForwardStage S) : SharedWorld S P R :=
  { w with requests := Function.update w.requests r stage }

/-- `read_live_record` -/
def readLiveRecord (w : SharedWorld S P R) : Option S :=
  w.record.filter fun s => (w.servers s).stage.live

/-- `spawn_server`; a server that is there is not a new one. -/
def spawnServer (w : SharedWorld S P R) (s : S) (successor : Bool) : SharedWorld S P R :=
  if (w.servers s).stage = .absent then w.setStage s (.waiting successor) else w

/-- A refusal, or a loss that is no harm: the request goes round again until the time is up. -/
def again (w : SharedWorld S P R) (r : R) (gaveUp : Bool) : SharedWorld S P R :=
  w.setRequest r (if gaveUp then .answered .notApplied else .ready)

/-- A request that was sent and lost. -/
def lose (method : R → String) (w : SharedWorld S P R) (r : R) (gaveUp : Bool) :
    SharedWorld S P R :=
  if method r ∈ readOnlyMethods then w.again r gaveUp
  else w.setRequest r (.answered .unknownOutcome)

/-- A step of a server; what cannot happen changes nothing. -/
def serve (w : SharedWorld S P R) : SharedDeed S P R → SharedWorld S P R
  | .claim s =>
      match (w.servers s).stage with
      | .waiting successor =>
          if w.claim = none then { w.setStage s (.claiming successor) with claim := some s } else w
      | _ => w
  | .readPrior s =>
      match (w.servers s).stage with
      | .claiming successor =>
          let prior := w.readLiveRecord
          if prior ≠ none ∧ successor = false then { w.setStage s .exited with claim := none }
          else w.setStage s (.booting prior)
      | _ => w
  | .bootFails s =>
      match (w.servers s).stage with
      | .booting _ => { w.setStage s .exited with claim := none }
      | _ => w
  | .publish s =>
      match (w.servers s).stage with
      | .booting prior => { w.setStage s (.published prior) with record := some s }
      | _ => w
  | .release s =>
      match (w.servers s).stage with
      | .published prior => { w.setStage s (.handing prior) with claim := none }
      | _ => w
  | .askDrain s delivered =>
      match (w.servers s).stage with
      | .handing prior =>
          let asked :=
            match prior with
            | some a =>
                if delivered then w.setServer a { w.servers a with draining := true } else w
            | none => w
          asked.setStage s .serving
      | _ => w
  | .drained s =>
      if (w.servers s).draining then w.setServer s { w.servers s with shouldExit := true } else w
  | .idle s =>
      if (w.servers s).stage.up && (w.servers s).inFlight.isEmpty && !(w.servers s).shouldExit &&
          (w.servers s).removing.isNone then
        w.setServer s (if w.record = some s then { w.servers s with removing := some .idle }
          else { w.servers s with draining := true, shouldExit := true })
      else w
  | .signal s =>
      if (w.servers s).stage.up then w.setServer s { w.servers s with shouldExit := true } else w
  | .leave s =>
      if (w.servers s).stage = .serving ∧ (w.servers s).shouldExit = true ∧
          (w.servers s).removing = none then
        w.setServer s (if w.record = some s then { w.servers s with removing := some .last }
          else { w.servers s with stage := .exited })
      else w
  | .unlink s =>
      match (w.servers s).removing with
      | some .idle =>
          { w with record := none }.setServer s
            { w.servers s with removing := none, draining := true, shouldExit := true }
      | some .last =>
          { w with record := none }.setServer s
            { w.servers s with removing := none, stage := .exited }
      | none => w
  | .crash s =>
      if (w.servers s).stage.live then
        { w.setServer s { w.servers s with stage := .exited, removing := none } with
            claim := if w.claim = some s then none else w.claim }
      else w
  | _ => w

/-- A step towards another server. -/
def start (w : SharedWorld S P R) : SharedDeed S P R → SharedWorld S P R
  | .spawnLock p =>
      if w.starters p = .idle ∧ w.spawnLock = none then
        { w.setStarter p .locked with spawnLock := some p }
      else w
  | .spawn p s =>
      match w.starters p with
      | .locked =>
          if w.readLiveRecord ≠ none then { w.setStarter p .idle with spawnLock := none }
          else (w.spawnServer s false).setStarter p (.starting s)
      | .rechecking own =>
          if w.readLiveRecord ≠ some own ∨ (w.servers own).draining ∨ w.claim ≠ none then
            { w.setStarter p .idle with spawnLock := none }
          else (w.spawnServer s true).setStarter p (.starting s)
      | _ => w
  | .started p =>
      match w.starters p with
      | .starting _ => { w.setStarter p .idle with spawnLock := none }
      | _ => w
  | .swapRead p =>
      match w.starters p, w.readLiveRecord with
      | .idle, some old => w.setStarter p (.swapping old)
      | _, _ => w
  | .swapSpawn p s =>
      match w.starters p with
      -- a hand swap takes no spawn lock
      | .swapping _ => (w.spawnServer s true).setStarter p .idle
      | _ => w
  | .watch p own =>
      if w.starters p = .idle ∧ w.readLiveRecord = some own ∧ w.claim = none then
        w.setStarter p (.probing own)
      else w
  | .watchLock p =>
      match w.starters p with
      | .probing own =>
          if w.spawnLock = none then
            { w.setStarter p (.rechecking own) with spawnLock := some p }
          else w.setStarter p .idle
      | _ => w
  | _ => w

/-- A step with a request. -/
def forward (method : R → String) (maxInflight : Nat) (w : SharedWorld S P R) :
    SharedDeed S P R → SharedWorld S P R
  | .resolve r =>
      match w.requests r, w.readLiveRecord with
      | .ready, some s => w.setRequest r (.resolved s)
      | _, _ => w
  | .resolveFails r =>
      match w.requests r with
      | .ready => w.setRequest r (.answered .unavailable)
      | _ => w
  | .post r fate gaveUp =>
      match w.requests r with
      | .resolved s =>
          match fate with
          | .unreachable => w.again r gaveUp
          | .lost => w.lose method r gaveUp
          | .arrives keysMatch session =>
              if (w.servers s).stage.up then
                match (w.servers s).admission maxInflight keysMatch session with
                | .token | .draining | .busy => w.again r gaveUp
                | .noSession => w.setRequest r (.answered .unavailable)
                | .admitted =>
                    { w.setServer s { w.servers s with inFlight := (w.servers s).inFlight ++ [r] }
                      with applied := w.applied ++ [(s, r)] }.setRequest r (.passed s)
              else w
      | _ => w
  | .respond r ok =>
      match w.requests r with
      | .passed _ => w.setRequest r (.answered (if ok then .result else .unavailable))
      | _ => w
  | .disconnect r gaveUp =>
      match w.requests r with
      | .passed _ => w.lose method r gaveUp
      | _ => w
  | .appEnds s r =>
      w.setServer s { w.servers s with inFlight := (w.servers s).inFlight.erase r }
  | _ => w

/-- One step. -/
def exec (method : R → String) (maxInflight : Nat) (w : SharedWorld S P R)
    (deed : SharedDeed S P R) : SharedWorld S P R :=
  match deed with
  | .claim _ | .readPrior _ | .bootFails _ | .publish _ | .release _ | .askDrain _ _ | .drained _
  | .idle _ | .signal _ | .leave _ | .unlink _ | .crash _ => w.serve deed
  | .spawnLock _ | .spawn _ _ | .started _ | .swapRead _ | .swapSpawn _ _ | .watch _ _
  | .watchLock _ => w.start deed
  | .resolve _ | .resolveFails _ | .post _ _ _ | .respond _ _ | .disconnect _ _ | .appEnds _ _ =>
      w.forward method maxInflight deed

end SharedWorld

end

end TrwMcp.SharedServer

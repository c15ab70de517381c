import ResilientDB.Model.Server

-- A lock is held for one access, so a handler that compares and then sets takes two steps.

namespace ResilientDB.Model
open Library

inductive Handler
  | internalConsensusCommit (env : Env) (context : Context) (request : Request)
  | compare (seq : Nat) (prepared : Option Nat)
  | set (read seq : Nat) (prepared : Option Nat)
  | redo (requests : List Request)
  | setRedo (read seq : Nat) (rest : List Request)
  | returned (prepared : Option Nat)

namespace Handler

variable (r : Replica)

def preparedBy (added : Replica) (seq : Nat) : Option Nat :=
  if ¬ TransactionStatue.readyCommit ≤ r.getTransactionState seq ∧
      TransactionStatue.readyCommit ≤ added.getTransactionState seq then some seq else none

def processPrepareMsg (env : Env) (context : Context) (request : Request) : Except Fault (Replica × Handler) :=
  if context.signature.signature = "" then .ok (r, .returned none)
  else do
    let added ← r.addConsensusMsg env context.signature request
    let prepared := preparedBy r added.replica request.seq
    if request.isRecovery then .ok (added.replica, .returned prepared)
    else .ok (added.replica,
      if added.code = .stateChanged then .compare request.seq prepared else .returned prepared)

def processNewView (env : Env) (request : Request) : Except Fault (Replica × Handler) :=
  match env.codec.parseNewView request.data with
  | none => .ok (r, .returned none)
  | some message => do
    let accepted ← r.checkNewView env message
    match accepted with
    | none => .ok (r, .returned none)
    | some maxSeq =>
      .ok ((r.setCurrentViewAndNewPrimary message.viewNumber).setNextSeq (addUInt64 maxSeq 1),
        .redo message.request)

def step : Handler → Except Fault (Replica × Handler)
  | .internalConsensusCommit env context request =>
    match request.type with
    | .prepare => processPrepareMsg r env context request
    | .newview => processNewView r env request
    | _ => do
      let outcome ← r.internalConsensusCommit env context request
      .ok (outcome.replica, .returned none)
  | .compare seq prepared => .ok (r,
      if r.getHighestPreparedSeq < seq then .set r.getHighestPreparedSeq seq prepared else .returned prepared)
  | .set _ seq prepared => .ok (r.setHighestPreparedSeq seq, .returned prepared)
  | .redo [] => .ok (r.changeStatue .none, .returned none)
  | .redo (request :: rest) =>
    if request.type = .prePrepare then do
      let (redone, _) ← Replica.redo (r, []) request
      .ok (redone, .redo rest)
    else .ok (r,
      if r.getHighestPreparedSeq < request.seq then .setRedo r.getHighestPreparedSeq request.seq rest
      else .redo rest)
  | .setRedo _ seq rest => .ok (r.setHighestPreparedSeq seq, .redo rest)
  | .returned prepared => .ok (r, .returned prepared)

-- The loop over the collected CHECKPOINTs holds `mutex_`.
def waitsForMutex : Handler → Bool
  | .internalConsensusCommit _ _ request => request.type = .checkpoint
  | _ => false

end Handler

inductive Turn
  | visit (env : Env) (entries : List ((Nat ×ₗ String) × Finset Nat)) (stable : Nat × String)
  | setStable (stable : Nat × String)

structure PreparedThreads where
  replica : Replica
  handlers : List Handler := []
  turn : Option Turn := none

inductive PreparedEvent
  | internalConsensusCommit (env : Env) (context : Context) (request : Request)
  | handler (i : Nat)
  | updateStableCheckPointStatus (env : Env)
  | turn
  | mayStart
  | background (event : ServerEvent)

namespace PreparedThreads

variable (s : PreparedThreads)

-- Catching up sets `highest_prepared_seq_` without a comparison.
def visitCkpt (env : Env) (entry : (Nat ×ₗ String) × Finset Nat) (rest : List ((Nat ×ₗ String) × Finset Nat))
    (stable : Nat × String) : PreparedThreads :=
  let (manager, requests, stable) :=
    CheckPointManager.visitCkpt env s.replica.config (s.replica.checkpointManager, [], stable) entry
  { s with
    replica := { s.replica with
      checkpointManager := manager
      transactionExecutor := requests.foldl TransactionExecutor.commit s.replica.transactionExecutor }
    turn := some (.visit env rest stable) }

def takeTurn : Turn → PreparedThreads
  | .visit env (entry :: rest) stable => s.visitCkpt env entry rest stable
  | .visit _ [] stable =>
    { s with
      replica := { s.replica with checkpointManager := { s.replica.checkpointManager with newData := 0 } }
      turn := some (.setStable stable) }
  | .setStable (seq, hash) =>
    { s with
      replica := { s.replica with checkpointManager := s.replica.checkpointManager.setStable seq hash }
      turn := none }

def isVisiting : Bool :=
  match s.turn with
  | some (.visit _ _ _) => true
  | _ => false

def background : ServerEvent → Option PreparedThreads
  | .process _ _ => none
  | .updateStableCheckPointStatus _ => none
  | event => (serverAct { replica := s.replica } event).map fun server => { s with replica := server.replica }

def act : PreparedEvent → Option PreparedThreads
  | .internalConsensusCommit env context request =>
    some { s with handlers := s.handlers ++ [.internalConsensusCommit env context request] }
  | .handler i =>
    s.handlers[i]?.bind fun handler =>
      if handler.waitsForMutex ∧ s.isVisiting then none
      else (handler.step s.replica).toOption.map fun next =>
        { s with replica := next.1, handlers := s.handlers.set i next.2 }
  | .updateStableCheckPointStatus env =>
    if s.turn.isNone ∧ s.replica.checkpointManager.newData ≠ 0 then
      some { s with turn := some (.visit env s.replica.checkpointManager.senderCkpt.entries (0, "")) }
    else none
  | .turn => s.turn.map s.takeTurn
  | .mayStart => some { s with replica := s.replica.mayStart }
  | .background event => s.background event

end PreparedThreads

def preparedThreads (config : ResDBConfig) : System PreparedThreads PreparedEvent where
  initial s := ∃ server, (Model.server config).initial server ∧ s = { replica := server.replica }
  step s event s' := s.act event = some s'

end ResilientDB.Model

import ResilientDB.Model.ViewChange

namespace ResilientDB.Model

structure Call where
  env : Env
  before : Replica
  context : Context
  request : Request
  outcome : Outcome

structure Progress where
  replica : Replica
  calls : List Call := []

namespace Replica

variable (r : Replica)

def complain (env : Env) (request : Request) : Replica :=
  let moved := { r with
    commitmentComplained := r.commitmentComplained.tail
    requestComplained := r.requestComplained ++ r.commitmentComplained.head?.toList }
  moved.addComplaintTimer env (toUInt64 request.proxyId) request.hash

def internalConsensusCommit (env : Env) (context : Context) (request : Request) : Except Fault Outcome :=
  match request.type with
  | .newTxns =>
    let outcome := r.processNewRequest env context request
    if outcome.ret = -3 then .ok { outcome with replica := outcome.replica.complain env request }
    else .ok outcome
  | .prePrepare => r.processProposeMsg env context request
  | .prepare => r.processPrepareMsg env context request
  | .commit => r.processCommitMsg env context request
  | .checkpoint =>
    let (manager, ret) := r.checkpointManager.processCheckPoint env r.config request
    .ok { replica := { r with checkpointManager := manager }, ret := ret }
  | .viewchange => r.processViewChange env request
  | .newview => r.processNewView env request
  | _ => .ok { replica := r, ret := 0 }

end Replica

namespace Progress

def call (envs : Nat → Env) (p : Progress) (context : Context) (request : Request) :
    Except Fault (Progress × Int) := do
  let env := envs p.calls.length
  let outcome ← p.replica.internalConsensusCommit env context request
  .ok ({ replica := outcome.replica, calls := p.calls ++ [⟨env, p.replica, context, request, outcome⟩] },
    outcome.ret)

def popPending (envs : Nat → Env) (p : Progress) (item : Context × Request) : Except Fault Progress := do
  let popped := { p.replica with requestPending := p.replica.requestPending.tail }
  let (next, _) ← call envs { p with replica := popped } item.1 item.2
  .ok next

def popComplained (envs : Nat → Env) (p : Progress) (item : Context × Request) : Except Fault Progress := do
  let popped := { p.replica with requestComplained := p.replica.requestComplained.tail }
  let (next, _) ← call envs { p with replica := popped } item.1 item.2
  .ok next

end Progress

def RequestType.waitsForView : RequestType → Bool
  | .newTxns | .prePrepare | .prepare | .commit => true
  | _ => false

namespace Replica

variable (r : Replica)

def consensusCommit (envs : Nat → Env) (context : Context) (request : Request) :
    Except Fault (Progress × Int) :=
  if r.config.enableViewchange = false then Progress.call envs { replica := r } context request
  else
    let started := r.mayStart
    if started.isInViewChange ∧ request.type.waitsForView then
      let waiting := { started with requestPending := started.requestPending ++ [(context, request)] }
      .ok ({ replica := waiting }, 0)
    else do
      let drained ←
        if started.isInViewChange then .ok { replica := started }
        else started.requestPending.foldlM (Progress.popPending envs) { replica := started }
      let (done, ret) ← drained.call envs context request
      let last ←
        if ret = -4 then done.replica.requestComplained.foldlM (Progress.popComplained envs) done
        else .ok done
      .ok (last, ret)

def process (envs : Nat → Env) (buff : String) : Except Fault (Progress × Int) :=
  match (envs 0).codec.parseMessage buff with
  | none => .ok ({ replica := r }, -1)
  | some message =>
    match (envs 0).codec.parseRequest message.data with
    | none => .ok ({ replica := r }, -1)
    | some request =>
      if request.type = .heartBeat then .ok ({ replica := r }, 0)
      else
        match message.signature with
        | some signature =>
          if (envs 0).verifyMessage message.data signature = false then .ok ({ replica := r }, -2)
          else r.consensusCommit envs ⟨signature⟩ request
        | none => r.consensusCommit envs ⟨{}⟩ request

end Replica
end ResilientDB.Model

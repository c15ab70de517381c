import ResilientDB.Model.Server

-- A call is split where it reads the status of the view change, and at each access to a queue.

namespace ResilientDB.Model
open Library

inductive CommitPoint
  | idle
  | mayStart (item : Context × Request)
  | isInViewChange (item : Context × Request)
  | addPendingRequest (item : Context × Request)
  | popPendingRequest (item : Context × Request)
  | commitPending (popped item : Context × Request)
  | commit (item : Context × Request)
  | popComplainedRequest
  | commitComplained (popped : Context × Request)
deriving DecidableEq

structure CommitThread where
  replica : Replica
  point : CommitPoint := .idle

inductive CommitEvent
  | consensusCommit (context : Context) (request : Request)
  | next (env : Env)
  | changeStatus (status : ViewChangeStatus)
  | setPrimary (primaryId : Nat)
  | background (event : ServerEvent)

namespace CommitThread

variable (s : CommitThread)

def next (env : Env) : CommitPoint → Except Fault CommitThread
  | .idle => .ok s
  | .mayStart item =>
    if s.replica.config.enableViewchange then
      .ok { replica := s.replica.mayStart, point := .isInViewChange item }
    else .ok { s with point := .commit item }
  | .isInViewChange item =>
    if s.replica.isInViewChange then
      .ok { s with point := if item.2.type.waitsForView then .addPendingRequest item else .commit item }
    else .ok { s with point := .popPendingRequest item }
  | .addPendingRequest item =>
    .ok { replica := { s.replica with requestPending := s.replica.requestPending ++ [item] }, point := .idle }
  | .popPendingRequest item =>
    match s.replica.requestPending with
    | [] => .ok { s with point := .commit item }
    | popped :: rest =>
      .ok { replica := { s.replica with requestPending := rest }, point := .commitPending popped item }
  | .commitPending popped item => do
    let outcome ← s.replica.internalConsensusCommit env popped.1 popped.2
    .ok { replica := outcome.replica, point := .popPendingRequest item }
  | .commit item => do
    let outcome ← s.replica.internalConsensusCommit env item.1 item.2
    .ok {
      replica := outcome.replica
      point := if s.replica.config.enableViewchange ∧ outcome.ret = -4 then .popComplainedRequest else .idle }
  | .popComplainedRequest =>
    match s.replica.requestComplained with
    | [] => .ok { s with point := .idle }
    | popped :: rest =>
      .ok { replica := { s.replica with requestComplained := rest }, point := .commitComplained popped }
  | .commitComplained popped => do
    let outcome ← s.replica.internalConsensusCommit env popped.1 popped.2
    .ok { replica := outcome.replica, point := .popComplainedRequest }

def responds : Bool :=
  match s.point with
  | .commit item => item.2.type = .response
  | _ => false

def background : ServerEvent → Option CommitThread
  | .process _ _ => none
  | event => (serverAct { replica := s.replica } event).map fun server => { s with replica := server.replica }

def act : CommitEvent → Option CommitThread
  | .consensusCommit context request =>
    if s.point = .idle then some { s with point := .mayStart (context, request) } else none
  | .next env => if s.point = .idle then none else (s.next env s.point).toOption
  | .changeStatus status => some { s with replica := s.replica.changeStatue status }
  | .setPrimary primaryId =>
    if s.responds then
      some { s with replica := { s.replica with systemInfo := { s.replica.systemInfo with primaryId := primaryId } } }
    else none
  | .background event => s.background event

end CommitThread

def commitThread (config : ResDBConfig) : System CommitThread CommitEvent where
  initial s := ∃ server, (Model.server config).initial server ∧ s = { replica := server.replica }
  step s event s' := s.act event = some s'

end ResilientDB.Model

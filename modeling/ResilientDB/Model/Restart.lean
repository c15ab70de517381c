import ResilientDB.Model.Recovery
import ResilientDB.Model.Server

-- `ConsensusCommit` logs a message before it looks at it.

namespace ResilientDB.Model
open Library

def ReplayedLogs.restore (logs : ReplayedLogs) (r : Replica) : Replica :=
  match logs.info with
  | some info => { r with systemInfo := { view := toUInt64 info.view, primaryId := toUInt32 info.primaryId } }
  | none => r

structure Restart where
  replica : Replica
  rest : List LogEntry
  handed : List Request := []

inductive RestartEvent
  | replay (env : Env)
  | thread (event : ServerEvent)

def ServerEvent.inConstructor : ServerEvent → Bool
  | .process _ _ | .monitorTimeout _ | .monitorCheckpointState => false
  | _ => true

namespace Restart

variable (s : Restart)

def replay (env : Env) : Except Fault (Option Restart) :=
  match s.rest with
  | [] => .ok none
  | entry :: rest => do
    let outcome ← s.replica.internalConsensusCommit env ⟨entry.signature⟩ entry.request
    .ok (some { s with replica := outcome.replica, rest := rest })

def moveThread (event : ServerEvent) : Except Fault (Option Restart) :=
  if event.inConstructor then do
    let moved ← Server.react { replica := s.replica } event
    .ok (moved.map fun server =>
      let before := s.replica.transactionExecutor.executeQueue
      { s with
        replica := server.replica
        handed := s.handed ++ server.replica.transactionExecutor.executeQueue.drop before.length })
  else .ok none

def act : RestartEvent → Except Fault (Option Restart)
  | .replay env => s.replay env
  | .thread event => s.moveThread event

end Restart

def restarting (config : ResDBConfig) (logs : ReplayedLogs) : System Restart RestartEvent where
  initial s := ∃ outOfOrder needResponse, s =
    { replica := logs.restore { Replica.create config with
        transactionExecutor := { outOfOrder := outOfOrder, needResponse := needResponse } }
      rest := logs.entries }
  step s event s' := s.act event = .ok (some s')

def restartAct (s : Restart) (event : RestartEvent) : Option Restart :=
  match s.act event with
  | .ok next => next
  | .error _ => none

-- Both numbers go into an `int`.
def systemInfoData (info : SystemInfo) : SystemInfoData :=
  { view := toInt32 info.view, primaryId := toInt32 info.primaryId }

def Receipt.logEntry (receipt : Receipt) : LogEntry :=
  { signature := receipt.context.signature, request := receipt.request }

structure LoggedServer where
  server : Server
  recovery : Recovery

inductive LoggedEvent
  | server (event : ServerEvent)
  | finishFile (seq : Nat) (stored : Bool) (renamed created : Int)

namespace LoggedServer

variable (s : LoggedServer)

def header : SystemInfoData := systemInfoData s.server.replica.systemInfo

def addReceived : ServerEvent → Recovery
  | .process envs buff => (receive (envs 0) buff).elim s.recovery fun receipt => s.recovery.addRequest receipt.logEntry
  | _ => s.recovery

def act : LoggedEvent → Except Fault (Option LoggedServer)
  | .server event => do
    let moved ← s.server.react event
    .ok (moved.map fun server => { server := server, recovery := s.addReceived event })
  | .finishFile seq stored renamed created =>
    .ok (some { s with recovery := s.recovery.finishFile seq stored renamed created s.header })

end LoggedServer

def loggedServer (config : ResDBConfig) (time : Int) : System LoggedServer LoggedEvent where
  initial s := (server config).initial s.server ∧ s.recovery = .init [] [] time s.header
  step s event s' := s.act event = .ok (some s')

def loggedServerAct (s : LoggedServer) (event : LoggedEvent) : Option LoggedServer :=
  match s.act event with
  | .ok next => next
  | .error _ => none

def LoggedServer.readAgain (s : LoggedServer) (config : ResDBConfig) (time : Int) (listing listing' : List LogName) :
    Option ReplayedLogs :=
  let info := systemInfoData (Replica.create config).systemInfo
  (Recovery.init s.recovery.directory listing time info).readLogs listing'

end ResilientDB.Model

import ResilientDB.Library.Framing
import ResilientDB.Model.Message

namespace ResilientDB.Model
open Library

inductive SendResult
  | sent (count : Nat)
  | error
deriving DecidableEq

-- The calls after the end of `rest` are errors.
structure Sent where
  ret : Int
  wire : Bytes := []
  rest : List SendResult := []

def sendLoop (size : Nat) (buf : Bytes) (results : List SendResult) : Sent :=
  if buf = [] then { ret := toInt32 size, rest := results }
  else
    match results with
    | [] => { ret := -1 }
    | .error :: rest => { ret := -1, rest := rest }
    | .sent count :: rest =>
      let sent := sendLoop size (buf.drop count) rest
      { sent with wire := buf.take count ++ sent.wire }

def sendInternal (buf : Bytes) (results : List SendResult) : Sent := sendLoop buf.length buf results

def TcpSocket.send (data : Bytes) (results : List SendResult) : Sent :=
  let length := sendInternal (encodeLE 8 data.length) results
  if length.ret ≠ 8 then { length with ret := if length.ret = -1 then -1 else -2 }
  else
    let body := sendInternal data length.rest
    let ret := if body.ret ≠ data.length then if body.ret = -1 then -1 else -2 else 0
    { ret := ret, wire := length.wire ++ body.wire, rest := body.rest }

-- `results` and `connects` are what the calls of `send` and `connect` will return.
structure SendChannel where
  maxRetryTime : Nat := 3
  connected : Bool := false
  longConnection : Bool := false
  longConnecting : Bool := false
  results : List SendResult := []
  connects : List Bool := []
  earlier : List Bytes := []
  wire : Bytes := []

namespace SendChannel

variable (data : Bytes)

def connect (c : SendChannel) : Int × SendChannel :=
  (if c.connects.headD false then 0 else -1,
    { c with connects := c.connects.tail, earlier := c.earlier ++ [c.wire], wire := [] })

def sendDataInternal (c : SendChannel) : Int × SendChannel :=
  let sent := TcpSocket.send data c.results
  (sent.ret, { c with results := sent.rest, wire := c.wire ++ sent.wire })

def sendFromKeepAlive : Nat → SendChannel → Int × SendChannel
  | 0, c => (-1, c)
  | turns + 1, c =>
    let (ret, ready) := if c.longConnecting then (0, c) else c.connect
    if ret ≠ 0 then sendFromKeepAlive turns ready
    else
      let (ret, sent) := { ready with longConnecting := true }.sendDataInternal data
      if ret ≥ 0 then (ret, sent) else sendFromKeepAlive turns { sent with longConnecting := false }

def sendRetrying : Nat → SendChannel → Int × SendChannel
  | 0, c => (-1, c)
  | turns + 1, c =>
    let (ret, ready) := if c.connected then (0, c) else c.connect
    if ret ≠ 0 then sendRetrying turns ready
    else
      let (ret, sent) := ready.sendDataInternal data
      if ret ≥ 0 then (ret, sent) else sendRetrying turns sent

def send (c : SendChannel) : Int × SendChannel :=
  if c.longConnection then sendFromKeepAlive data c.maxRetryTime c else sendRetrying data c.maxRetryTime c

def sendAll (c : SendChannel) (messages : List Bytes) : SendChannel :=
  messages.foldl (fun c data => (c.send data).2) c

end SendChannel
end ResilientDB.Model

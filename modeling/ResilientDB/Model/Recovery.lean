import ResilientDB.Model.Message
import Mathlib.Data.List.Sort

-- The directory iterator gives the files in any order.

namespace ResilientDB.Model

def toInt64 (value : Int) : Int := Int.bmod value (2 ^ 64)

structure SystemInfoData where
  view : Int := 0
  primaryId : Int := 0
deriving DecidableEq, Repr

-- The names of active files have -1 for both bounds.
structure LogName where
  time : Int
  minSeq : Int
  maxSeq : Int
  ckpt : Int
deriving DecidableEq, Repr

structure LogEntry where
  signature : SignatureInfo := {}
  request : Request
deriving DecidableEq, Repr

structure LogFile where
  name : LogName
  info : Option SystemInfoData := none
  entries : List LogEntry := []
deriving DecidableEq, Repr

structure Recovery where
  directory : List LogFile
  filePath : LogName
  minSeq : Int := -1
  maxSeq : Int := -1
deriving DecidableEq, Repr

def generateFile (time seq minSeq maxSeq : Int) : LogName :=
  { time := time, minSeq := minSeq, maxSeq := maxSeq, ckpt := seq }

def createFile (directory : List LogFile) (path : LogName) : List LogFile :=
  if directory.any (fun file => file.name = path) then directory else directory ++ [{ name := path }]

def openFile (directory : List LogFile) (path : LogName) (info : SystemInfoData) : List LogFile :=
  (createFile directory path).map fun file =>
    if file.name = path ∧ file.info = none then { file with info := some info } else file

def renameFile (directory : List LogFile) (path newPath : LogName) : List LogFile :=
  if path = newPath then directory
  else (directory.filter (fun file => file.name ≠ newPath)).map fun file =>
    if file.name = path then { file with name := newPath } else file

-- The signed checkpoint is compared as an unsigned number.
def readLogsFromFiles (ckpt : Int) (file : LogFile) : List LogEntry :=
  if file.info = none then []
  else (file.entries.filter (fun entry => toUInt64 ckpt < entry.request.seq)).map fun entry =>
    { entry with request := { entry.request with isRecovery := true } }

structure LastFile where
  ckpt : Int := -1
  time : Int := 0
  path : Option LogName := none
deriving DecidableEq, Repr

def LastFile.visit (last : LastFile) (name : LogName) : LastFile :=
  if name.minSeq = -1 ∧ (last.ckpt = -1 ∨ last.time < name.time) then
    { ckpt := name.ckpt, time := toInt32 name.time, path := some name }
  else last

def getLastFile (listing : List LogName) : LastFile := listing.foldl LastFile.visit {}

-- The result of `std::min` is dropped.
def switchFile (directory : List LogFile) (path : LogName) (info : SystemInfoData) : Recovery :=
  let created := createFile directory path
  let entries := (created.filter fun file => file.name = path).flatMap (readLogsFromFiles 0)
  let bounds := entries.foldl (fun (bounds : Int × Int) entry =>
    (if bounds.1 = -1 then toInt64 entry.request.seq else bounds.1, max bounds.2 (toInt64 entry.request.seq))) (-1, -1)
  { directory := openFile created path info, filePath := path, minSeq := bounds.1, maxSeq := bounds.2 }

def Recovery.init (directory : List LogFile) (listing : List LogName) (time : Int) (info : SystemInfoData) : Recovery :=
  let first := generateFile time 0 (-1) (-1)
  let last := getLastFile listing
  switchFile directory (if last.ckpt = -1 then first else last.path.getD first) info

def isLogged : RequestType → Bool
  | .prePrepare | .prepare | .commit | .checkpoint | .newview => true
  | _ => false

namespace Recovery

variable (s : Recovery)

def writeLog (entry : LogEntry) : Recovery :=
  let seq := toInt64 entry.request.seq
  { s with
    minSeq := if s.minSeq = -1 then seq else min s.minSeq seq
    maxSeq := max s.maxSeq seq
    directory := s.directory.map fun file =>
      if file.name = s.filePath then { file with entries := file.entries ++ [entry] } else file }

def addRequest (entry : LogEntry) : Recovery :=
  if isLogged entry.request.type then s.writeLog entry else s

def finishFile (seq : Nat) (stored : Bool) (renamed created : Int) (info : SystemInfoData) : Recovery :=
  if stored then
    let finished := generateFile renamed seq s.minSeq s.maxSeq
    let next := generateFile created seq (-1) (-1)
    { directory := openFile (renameFile s.directory s.filePath finished) next info, filePath := next }
  else s

end Recovery

inductive LogEvent
  | addRequest (entry : LogEntry)
  | finishFile (seq : Nat) (stored : Bool) (renamed created : Int) (info : SystemInfoData)
deriving DecidableEq, Repr

def Recovery.act (s : Recovery) : LogEvent → Recovery
  | .addRequest entry => s.addRequest entry
  | .finishFile seq stored renamed created info => s.finishFile seq stored renamed created info

-- Two files of one time are not considered.
def sortByTime (names : List LogName) : List LogName := names.insertionSort fun a b => a.time ≤ b.time

def lastCkpt (listing : List LogName) : Int :=
  listing.foldl (fun last name => if name.ckpt > last then name.ckpt else last) 0

-- Without an active file `back` is called on an empty list.
def getRecoveryFiles (listing : List LogName) : Option (List LogName × Int) :=
  let last := lastCkpt listing
  let list := listing.filter fun name => name.minSeq ≠ -1 ∧ name.minSeq ≤ last ∧ name.maxSeq ≥ last
  let active := sortByTime (listing.filter fun name => name.minSeq = -1)
  active.getLast?.map fun newest => (sortByTime (list ++ [newest]), last)

structure ReplayedLogs where
  info : Option SystemInfoData
  entries : List LogEntry
deriving DecidableEq, Repr

def Recovery.readLogs (s : Recovery) (listing : List LogName) : Option ReplayedLogs :=
  (getRecoveryFiles listing).map fun (names, ckpt) =>
    let files := names.flatMap fun name => s.directory.filter fun file => file.name = name
    { info := files.head?.bind fun file => file.info, entries := files.flatMap (readLogsFromFiles ckpt) }

-- A negative position is the largest `size_t`; -1 means not found.
def rfind (c : Char) (s : List Char) (pos : Int) : Int :=
  let front := if pos < 0 then s else s.take (pos.toNat + 1)
  (front.length : Int) - 1 - (front.reverse.takeWhile fun other => other ≠ c).length

def splitName (name : List Char) : List Char × List Char :=
  let dot := rfind '.' name (-1)
  if dot ≤ 0 ∨ name = ['.', '.'] then (name, []) else (name.take dot.toNat, name.drop dot.toNat)

-- `std::stoll` throws when there is no digit or the value does not fit.
def toChars (value : Int) : List Char :=
  if value < 0 then '-' :: Nat.toDigits 10 value.natAbs else Nat.toDigits 10 value.natAbs

def isSpace (c : Char) : Bool := c = ' ' ∨ 9 ≤ c.toNat ∧ c.toNat ≤ 13

def takeSign : List Char → Bool × List Char
  | '-' :: rest => (true, rest)
  | '+' :: rest => (false, rest)
  | rest => (false, rest)

def stoll (s : List Char) : Option Int :=
  let (negative, rest) := takeSign (s.dropWhile isSpace)
  let digits := rest.takeWhile Char.isDigit
  let value : Int := if negative then -Nat.ofDigitChars 10 digits 0 else Nat.ofDigitChars 10 digits 0
  if digits ≠ [] ∧ -2 ^ 63 ≤ value ∧ value < 2 ^ 63 then some value else none

def stampName (stem : List Char) (name : LogName) : List Char :=
  stem ++ '_' :: toChars name.time ++ '_' :: toChars name.minSeq ++ '_' :: toChars name.maxSeq ++
    '_' :: toChars name.ckpt

-- The configured extension has its period already.
def generateName (base : List Char) (name : LogName) : List Char :=
  let (stem, ext) := splitName base
  stampName stem name ++ '.' :: if ext = [] then ['l', 'o', 'g'] else ext

def fieldBetween (fileName : List Char) (first last : Int) : Option Int :=
  let count := last - first - 1
  stoll ((fileName.drop (first + 1).toNat).take (if count < 0 then fileName.length else count.toNat))

-- `GetLastFile` does not parse the third number.
def parseFields (fileName : List Char) : Option LogName := do
  let pos := rfind '_' fileName (-1)
  let maxSeqPos := rfind '_' fileName (pos - 1)
  let minSeqPos := rfind '_' fileName (maxSeqPos - 1)
  let timePos := rfind '_' fileName (minSeqPos - 1)
  let ckpt ← fieldBetween fileName pos fileName.length
  let maxSeq ← fieldBetween fileName maxSeqPos pos
  let minSeq ← fieldBetween fileName minSeqPos maxSeqPos
  let time ← fieldBetween fileName timePos minSeqPos
  some { time := time, minSeq := minSeq, maxSeq := maxSeq, ckpt := ckpt }

inductive ParsedName
  | skipped
  | throws
  | parsed (name : LogName)
deriving DecidableEq, Repr

def parseName (file : List Char) : ParsedName :=
  let (fileName, ext) := splitName file
  if ext ≠ ['.', 'l', 'o', 'g'] then .skipped else (parseFields fileName).elim .throws .parsed

end ResilientDB.Model

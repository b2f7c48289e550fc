import ShellProvider.Session

/-!
# The data plane: Send, Receive and Signal

The three handlers that move data through a command, all meeting on the command's single
`receiveContext` slot:

* `shellInvokeReceive` (`Shell_Invoke_Receive`) parks its call in the slot, unless the slot is
  taken.
* `shellInvokeSend` (`Shell_Invoke_Send`) takes whatever the slot holds and empties it, marks
  a stream done on `endOfStream`, decodes the inbound data, and answers the taken Receive
  (when there was one) and its own call.
* `shellInvokeSignal` (`Shell_Invoke_Signal`) answers a parked Receive with `Done`, then frees
  the command; every exit, error or not, goes through the `error:` label that frees it.

Reading `thisShell->command` of a shell that has none is a `NULL` dereference: these handlers
check the command ID against it without checking it is there.
-/

namespace ShellProvider

/-- The fields of `in->streamData.value` that `Shell_Invoke_Send` reads. -/
structure SendRequest where
  commandId : Option (List Char)
  streamName : List Char
  endOfStream : Bool
  data : Option (List UInt8)
  dataLength : ℕ
  deriving DecidableEq, Repr

/-- The inbound data path of `Shell_Invoke_Send`: the base-64 text is the `MI_Char` string with
its NUL, of which `dataLength` characters are read; on a compressed shell the decoded bytes are
decompressed in turn. -/
def decodeInbound (P : Platform) (g : ℕ → UInt8) (isCompressed : Bool) (data : List UInt8)
    (dataLength : ℕ) : Except Failure DecodeBuffer := do
  let decoded ← base64DecodeBuffer P.base64 g
    ⟨data ++ [0], dataLength * sizeofMIChar, dataLength * sizeofMIChar⟩
  if isCompressed then decompressBuffer P.xpress g decoded else pure decoded

/-- The end-of-stream loop of `Shell_Invoke_Send`, from stream `i` with `n` iterations left:
the first stream for which `Tcscmp(streamName, outboundStreams[i].streamName)` is non-zero,
that is whose name *differs*, is marked done. -/
def markStreamDone (streamName : List Char) (streams : List StreamData) :
    ℕ → ℕ → Except Fault (List StreamData)
  | _, 0 => .ok streams
  | i, n + 1 =>
    match streams[i]? with
    | none => .error .outOfBounds
    | some sd =>
      if streamName ≠ sd.streamName then .ok (streams.set i { sd with done := true })
      else markStreamDone streamName streams (i + 1) n

/-- The `MI_Result` the inbound data path leaves in `miResult`. -/
def inboundResult (P : Platform) (g : ℕ → UInt8) (isCompressed : Bool) (req : SendRequest) :
    Except Fault MIResult :=
  match req.data with
  | none => .ok .ok
  | some data =>
    match decodeInbound P g isCompressed data req.dataLength with
    | .ok _ => .ok .ok
    | .error (.result r) => .ok r
    | .error (.fault f) => .error f

/-- The posts `Shell_Invoke_Send` makes once it has taken the receive slot's `receiveContext`
and the inbound path ended with `miResult`: the receive result (posted even on a `NULL`
context), the final result of the taken Receive, the `Shell_Send` instance and its own final
result. -/
def sendPosts (context receiveContext : Ctx) (cid : List Char) (req : SendRequest)
    (miResult : MIResult) : List Post :=
  (if miResult = .ok then
      [.inst receiveContext (.receive (some cid) (if req.endOfStream then .done else .running)
        (some ⟨some cid, req.streamName, some req.endOfStream⟩))]
    else []) ++
  (if receiveContext ≠ 0 then [.result receiveContext miResult] else []) ++
  (if miResult = .ok then [.inst context .send] else []) ++ [.result context miResult]

/-- `Shell_Invoke_Send`. `g` is what the decode buffers' `malloc`s hold. -/
def shellInvokeSend (P : Platform) (s : State) (context : Ctx) (name : List Char)
    (req : SendRequest) (g : ℕ → UInt8) : Outcome := do
  let p ← findShell s name
  if p = 0 then return (s, [.result context .notFound])
  let some cid := req.commandId | return (s, [.result context .notSupported])
  let d ← s.shellAt p
  let c ← s.commandAt d.command
  if cid ≠ c.commandId then return (s, [.result context .notFound])
  let streams ← if req.endOfStream then
      markStreamDone req.streamName c.outboundStreams 0 d.outboundStreamNames.length
    else pure c.outboundStreams
  let miResult ← inboundResult P g d.isCompressed req
  return (s.setCommand d.command { c with receiveContext := 0, outboundStreams := streams },
    sendPosts context c.receiveContext cid req miResult)

/-- `Shell_Invoke_Receive`. -/
def shellInvokeReceive (s : State) (context : Ctx) (name : List Char)
    (commandId : Option (List Char)) : Outcome := do
  let p ← findShell s name
  if p = 0 then return (s, [.result context .notFound])
  let some cid := commandId | return (s, [.result context .notSupported])
  let d ← s.shellAt p
  let c ← s.commandAt d.command
  if cid ≠ c.commandId then return (s, [.result context .notFound])
  if c.receiveContext ≠ 0 then return (s, [.result context .alreadyExists])
  return (s.setCommand d.command { c with receiveContext := context }, [])

/-- The posts with which `Shell_Invoke_Signal` answers a parked Receive: `Done`, with the first
stream attached unless it is done already; `receivePost` is the result of that post. -/
def signalReceivePosts (commandId : Option (List Char)) (c : CommandData)
    (receivePost : MIResult) : Except Fault (List Post) :=
  if c.receiveContext = 0 then .ok []
  else match c.outboundStreams[0]? with
    | none => .error .outOfBounds
    | some s0 =>
      .ok [.inst c.receiveContext (.receive commandId .done
          (if s0.done then none else some ⟨commandId, s0.streamName, none⟩)),
        .result c.receiveContext receivePost]

/-- `Shell_Invoke_Signal`; `receivePost` and `signalPost` are the results of the two instance
posts. The command is freed on every exit, the error exits included. -/
def shellInvokeSignal (s : State) (context : Ctx) (name : List Char)
    (commandId : Option (List Char)) (receivePost signalPost : MIResult) : Outcome := do
  let p ← findShell s name
  if p = 0 then throw .nullDeref
  let d ← s.shellAt p
  let c ← s.commandAt d.command
  let detached := (s.erase d.command).setShell p { d with command := 0 }
  if let some cid := commandId then
    if cid ≠ c.commandId then return (detached, [.result context .notFound])
  let posts ← signalReceivePosts commandId c receivePost
  return (detached, posts ++ [.inst context .signal, .result context signalPost])

end ShellProvider

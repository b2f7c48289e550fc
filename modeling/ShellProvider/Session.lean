import ShellProvider.State
import ShellProvider.Streams
import ShellProvider.Codec.Compression

/-!
# The session lifecycle: creating, deleting and reporting

The handlers that make and unmake sessions, and the backend callback that completes them:

* `shellCreateInstance` (`Shell_CreateInstance`) pushes a new shell at the head of the list
  and hands its plug-in request to the backend; it posts nothing on success, leaving the reply
  to `WSManPluginReportContext`.
* `shellDeleteInstance` (`Shell_DeleteInstance`) unlinks the first shell with the ID.
* `shellInvokeCommand` (`Shell_Invoke_Command`) attaches a command and hands its request to the
  backend; every error exit goes through the function's `error:` label.
* `wsmanPluginReportContext` (`WSManPluginReportContext`) picks the shell or the command
  branch by the `isShell` byte it reads through `CommonData`, stores the backend's handle and
  posts the instance, unwinding the session when that post fails.
* `shellGetInstance`, `shellEnumerateInstances` and `shellModifyInstance` read the list only.

A handler's `Outcome` is a fault, or the state it leaves and the posts it made, in order. What
the environment decides is an argument: the address `calloc` returns (`0` when it fails),
whether a `malloc` succeeds, and the `MI_Result` of each post whose result the code reads.
-/

namespace ShellProvider

/-- What `Shell.c` runs against but does not declare: the sizes of its two session structures
(`sizeof(ShellData)` and `sizeof(CommandData)`, which depend on `WSMAN_PLUGIN_REQUEST`; a
structure is far smaller than 4 GiB), and the base-64 and Xpress libraries. -/
structure Platform where
  sizeofShellData : ℕ
  sizeofCommandData : ℕ
  sizeofShellData_lt : sizeofShellData < 2 ^ 32
  sizeofCommandData_lt : sizeofCommandData < 2 ^ 32
  base64 : Base64
  xpress : Xpress

/-- The ID of the shell allocated at `p`: its ID buffer sits right behind the `ShellData`. -/
def Platform.shellIdAt (P : Platform) (p : Addr) : List Char :=
  formatId (p + P.sizeofShellData)

/-- The ID of the command allocated at `p`: its ID buffer sits right behind the `CommandData`. -/
def Platform.commandIdAt (P : Platform) (p : Addr) : List Char :=
  formatId (p + P.sizeofCommandData)

/-- What a handler does: undefined behaviour, or the state it leaves and its posts, in order. -/
abbrev Outcome := Except Fault (State × List Post)

/-- The shell `Shell_CreateInstance` builds at `p`, in front of the list head `next`. -/
def newShell (P : Platform) (p next : Addr) (names : List (List Char)) (isCompressed : Bool) :
    ShellData :=
  { nextShell := next, shellId := P.shellIdAt p, command := 0, outboundStreamNames := names,
    isCompressed := isCompressed, requestContext := 0, pluginShellContext := 0 }

/-- `Shell_CreateInstance`. `isCompressed` is whether the instance carries a Boolean
`IsCompressed` that is true; `calloc` is where the shell is allocated, `namesOk` whether the
name array's `malloc` succeeds. `Stprintf` of the ID cannot fail: sixteen hex digits fit
`ID_LENGTH`. The call's `context` is kept nowhere. -/
def shellCreateInstance (P : Platform) (s : State) (context : Ctx)
    (outputStreams : Option (List Char)) (isCompressed : Bool) (calloc : Addr) (namesOk : Bool) :
    Outcome :=
  match outputStreams with
  | none => .ok (s, [.result context .invalidParameter])
  | some streams =>
    if calloc = 0 then .ok (s, [.result context .serverLimitsExceeded])
    else match extractOutboundStreams streams namesOk with
      | .error f => .error f
      | .ok none => .ok (s.allocFree calloc, [.result context .serverLimitsExceeded])
      | .ok (some names) =>
        .ok ({ (s.alloc calloc (.shell (newShell P calloc s.shellList names isCompressed))).issue
            calloc with shellList := calloc }, [])

/-- `Shell_DeleteInstance`: unlink and free the first shell with the ID. Its command, if any,
is left allocated. -/
def shellDeleteInstance (s : State) (context : Ctx) (name : List Char) : Outcome :=
  match findShellLink s name (s.allocs.length + 1) 0 s.shellList with
  | .error f => .error f
  | .ok (_, 0) => .ok (s, [.result context .notFound])
  | .ok (previous, p) =>
    match s.shellAt p with
    | .error f => .error f
    | .ok d =>
      match s.relink previous d.nextShell with
      | .error f => .error f
      | .ok s' => .ok (s'.erase p, [.result context .ok])

/-- The command `Shell_Invoke_Command` builds at `c` for the shell `d` at `p`: its stream
table copies the shell's names, all not done, and the call's `context` goes into
`receiveContext`. -/
def newCommand (P : Platform) (c p : Addr) (d : ShellData) (context : Ctx) : CommandData :=
  { commandId := P.commandIdAt c, outboundStreams := d.outboundStreamNames.map (⟨·, false⟩),
    shellData := p, commandContext := 0, receiveContext := context, pluginCommandContext := 0 }

/-- `Shell_Invoke_Command`. `calloc` is where the command is allocated, `clone` the result of
`Shell_Command_Clone` (whose source is an uninitialised local). The `error:` label deletes
`thisShell->command` on every error exit. -/
def shellInvokeCommand (P : Platform) (s : State) (context : Ctx) (name : List Char)
    (calloc : Addr) (clone : MIResult) : Outcome :=
  match findShell s name with
  | .error f => .error f
  | .ok 0 => .error .nullDeref
  | .ok p =>
    match s.shellAt p with
    | .error f => .error f
    | .ok d =>
      if d.command ≠ 0 then
        match s.commandAt d.command with
        | .error f => .error f
        | .ok _ =>
          .ok ((s.erase d.command).setShell p { d with command := 0 },
            [.result context .alreadyExists])
      else if calloc = 0 then .error .nullDeref
      else if clone = .ok then
        .ok ((((s.alloc calloc (.command (newCommand P calloc p d context))).setShell p
          { d with command := calloc })).issue calloc, [])
      else .ok (s.allocFree calloc, [.result context clone])

/-- The `isShell` byte `WSManPluginReportContext` reads for a shell. `ShellData` declares no
`isShell`: at that offset, right behind the `pluginRequest` array both structures start
with, lies the lowest-addressed byte of `nextShell`, its low byte on the little-endian
targets the provider is built for. -/
def isShellByte (d : ShellData) : ℕ := d.nextShell % 256

/-- `WSManPluginReportContext` for the request at `request` (a session's address: the request
is its first member), with the backend's `context` handle; `post` is the result of the
instance post. A command's `isShell` is the zero `calloc` left. -/
def wsmanPluginReportContext (s : State) (request : Addr) (context : Handle) (post : MIResult) :
    Outcome :=
  let s := { s with requests := s.requests.erase request }
  match s.cell request with
  | .error f => .error f
  | .ok (.shell d) =>
    if isShellByte d ≠ 0 then
      let posts := [.inst d.requestContext (.shell d.shellId), .result d.requestContext post]
      if post = .ok then .ok (s.setShell request { d with pluginShellContext := context }, posts)
      else .ok ({ s.erase request with shellList := d.nextShell }, posts)
    else .error .typeConfusion
  | .ok (.command c) =>
    if post = .ok then
      .ok (s.setCommand request { c with pluginCommandContext := context },
        [.inst c.commandContext (.command c.commandId), .result c.commandContext .ok])
    else .error .useAfterFree

/-- `Shell_GetInstance`; the result of `Shell_Post` is not read. -/
def shellGetInstance (s : State) (context : Ctx) (name : List Char) : Outcome :=
  match findShell s name with
  | .error f => .error f
  | .ok 0 => .ok (s, [.result context .notFound])
  | .ok p =>
    match s.shellAt p with
    | .error f => .error f
    | .ok d => .ok (s, [.inst context (.shell d.shellId), .result context .ok])

/-- The loop of `Shell_EnumerateInstances` from `p`, posting shell `i` onwards; `post i` is the
result of the `i`-th `Shell_Post`, and the first failure ends the walk. -/
def enumerateFrom (s : State) (context : Ctx) (post : ℕ → MIResult) :
    ℕ → ℕ → Addr → Except Fault (List Post)
  | 0, _, _ => .error .divergence
  | fuel + 1, i, p =>
    if p = 0 then .ok [.result context .ok]
    else match s.shellAt p with
      | .error f => .error f
      | .ok d =>
        if post i = .ok then
          match enumerateFrom s context post fuel (i + 1) d.nextShell with
          | .error f => .error f
          | .ok posts => .ok (.inst context (.shell d.shellId) :: posts)
        else .ok [.inst context (.shell d.shellId), .result context (post i)]

/-- `Shell_EnumerateInstances`. -/
def shellEnumerateInstances (s : State) (context : Ctx) (post : ℕ → MIResult) : Outcome :=
  match enumerateFrom s context post (s.allocs.length + 1) 0 s.shellList with
  | .error f => .error f
  | .ok posts => .ok (s, posts)

/-- `Shell_ModifyInstance` and `Shell_Invoke_Connect`: not supported. -/
def notSupported (s : State) (context : Ctx) : Outcome :=
  .ok (s, [.result context .notSupported])

end ShellProvider

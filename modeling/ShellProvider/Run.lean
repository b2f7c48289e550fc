import ShellProvider.DataPlane

/-!
# Runs of the provider

An `Event` is one thing that happens to the provider: a remote call, carrying what the
environment decides while it runs (where `calloc` puts a block, whether a post succeeds, what
uninitialised memory holds), or a backend callback. `step` dispatches it to its handler.

The environment keeps its side of the contract (`Event.Valid`):

* `calloc` returns `NULL` or a block of the size it was asked for that fits the 64-bit address
  space and overlaps no live block (`State.Room`): a shell's block holds the `ShellData` and
  its ID buffer, a command's the `CommandData`, its ID buffer and its stream table;
* the backend reports only on a request it was handed and has not reported on.

Calls and callbacks may come in any order. `Reachable P s` holds of every state some run
reaches without undefined behaviour.
-/

namespace ShellProvider

/-- One call into the provider, or one callback from the backend. -/
inductive Event
  | createInstance (context : Ctx) (outputStreams : Option (List Char)) (isCompressed : Bool)
      (calloc : Addr) (namesOk : Bool)
  | deleteInstance (context : Ctx) (name : List Char)
  | getInstance (context : Ctx) (name : List Char)
  | enumerateInstances (context : Ctx) (post : ℕ → MIResult)
  | modifyInstance (context : Ctx)
  | invokeCommand (context : Ctx) (name : List Char) (calloc : Addr) (clone : MIResult)
  | invokeSend (context : Ctx) (name : List Char) (req : SendRequest) (g : ℕ → UInt8)
  | invokeReceive (context : Ctx) (name : List Char) (commandId : Option (List Char))
  | invokeSignal (context : Ctx) (name : List Char) (commandId : Option (List Char))
      (receivePost signalPost : MIResult)
  | invokeConnect (context : Ctx)
  | reportContext (request : Addr) (handle : Handle) (post : MIResult)

/-- The provider's response to one event. -/
def step (P : Platform) (s : State) : Event → Outcome
  | .createInstance context outputStreams isCompressed calloc namesOk =>
    shellCreateInstance P s context outputStreams isCompressed calloc namesOk
  | .deleteInstance context name => shellDeleteInstance s context name
  | .getInstance context name => shellGetInstance s context name
  | .enumerateInstances context post => shellEnumerateInstances s context post
  | .modifyInstance context => notSupported s context
  | .invokeCommand context name calloc clone => shellInvokeCommand P s context name calloc clone
  | .invokeSend context name req g => shellInvokeSend P s context name req g
  | .invokeReceive context name commandId => shellInvokeReceive s context name commandId
  | .invokeSignal context name commandId receivePost signalPost =>
    shellInvokeSignal s context name commandId receivePost signalPost
  | .invokeConnect context => notSupported s context
  | .reportContext request handle post => wsmanPluginReportContext s request handle post

/-! ## The allocator's side -/

/-- `sizeof(StreamData)`: a pointer and an `MI_Boolean`, padded to the pointer's alignment on
the 64-bit targets whose pointers the IDs print. -/
def sizeofStreamData : ℕ := 16

/-- `sizeof(*thisShell) + sizeof(MI_Char)*ID_LENGTH`: the block `Shell_CreateInstance` asks
`calloc` for. -/
def Platform.shellBlock (P : Platform) : ℕ := P.sizeofShellData + idLength

/-- The block `Shell_Invoke_Command` asks `calloc` for on a shell declaring `n` streams: the
`CommandData`, its ID buffer and a `StreamData` per stream. -/
def Platform.commandBlock (P : Platform) (n : ℕ) : ℕ :=
  P.sizeofCommandData + idLength + n * sizeofStreamData

/-- The block a live cell occupies; a command's stream table has one entry per stream. -/
def Platform.blockSize (P : Platform) : Cell → ℕ
  | .shell _ => P.shellBlock
  | .command c => P.commandBlock c.outboundStreams.length

/-- `calloc` may return the block of `n` bytes at `p` in `s`: it fits the 64-bit address space
and overlaps no live block. -/
def State.Room (P : Platform) (s : State) (p n : ℕ) : Prop :=
  p + n ≤ 2 ^ 64 ∧ ∀ (q : ℕ) c, s.heap q = some c → p + n ≤ q ∨ q + P.blockSize c ≤ p

section Room

variable {P : Platform} {s : State} {p n : ℕ}

theorem Platform.shellBlock_le (P : Platform) : P.shellBlock ≤ 2 ^ 32 + 16 := by
  have := P.sizeofShellData_lt
  unfold Platform.shellBlock idLength
  omega

theorem Platform.commandBlock_le (P : Platform) (n : ℕ) :
    P.commandBlock n ≤ 2 ^ 32 + 16 + 16 * n := by
  have := P.sizeofCommandData_lt
  unfold Platform.commandBlock idLength sizeofStreamData
  omega

theorem Platform.shellBlock_pos (P : Platform) : 0 < P.shellBlock := by
  unfold Platform.shellBlock idLength
  omega

theorem Platform.commandBlock_pos (P : Platform) (n : ℕ) : 0 < P.commandBlock n := by
  unfold Platform.commandBlock idLength
  omega

theorem Platform.blockSize_pos (P : Platform) : ∀ c, 0 < P.blockSize c
  | .shell _ => P.shellBlock_pos
  | .command _ => P.commandBlock_pos _

/-- Room for a block is room where nothing lives. -/
theorem State.Room.heap_none (h : s.Room P p n) (hn : 0 < n) : s.heap p = none := by
  cases hp : s.heap p with
  | none => rfl
  | some c =>
    have := P.blockSize_pos c
    rcases h.2 p c hp with h' | h' <;> omega

theorem State.Room.init (h : p + n ≤ 2 ^ 64) : State.init.Room P p n :=
  ⟨h, fun _ _ h => by cases h⟩

theorem State.Room.of_heap_eq {s' : State} (h : s.Room P p n) (hh : s'.heap = s.heap) :
    s'.Room P p n :=
  ⟨h.1, fun q c hq => h.2 q c (hh ▸ hq)⟩

/-- A cell allocated where the block does not reach leaves room for it. -/
theorem State.Room.alloc {a : ℕ} {c : Cell} (h : s.Room P p n)
    (ha : p + n ≤ a ∨ a + P.blockSize c ≤ p) : (s.alloc a c).Room P p n := by
  refine ⟨h.1, fun q c' hq => ?_⟩
  by_cases hqa : q = a
  · rw [hqa, State.alloc_heap, if_pos rfl, Option.some.injEq] at hq
    subst hq hqa
    exact ha
  · rw [State.alloc_heap, if_neg hqa] at hq
    exact h.2 q c' hq

end Room

/-- The environment's side of an event. `Shell_Invoke_Command` sizes its block by the stream
count of the shell `FindShell` returns. -/
def Event.Valid (P : Platform) (s : State) : Event → Prop
  | .createInstance _ _ _ calloc _ => calloc = 0 ∨ s.Room P calloc P.shellBlock
  | .invokeCommand _ name calloc _ =>
    calloc = 0 ∨ ∀ p d, findShell s name = .ok p → s.shellAt p = .ok d →
      s.Room P calloc (P.commandBlock d.outboundStreamNames.length)
  | .reportContext request _ _ => request ∈ s.requests
  | _ => True

section Valid

variable {P : Platform} {s : State} {context : Ctx} {calloc : Addr}

/-- A valid `Shell_CreateInstance` gets its block where nothing lives. -/
theorem Event.Valid.createInstance_free {outputStreams : Option (List Char)} {isCompressed : Bool}
    {namesOk : Bool}
    (hv : (Event.createInstance context outputStreams isCompressed calloc namesOk).Valid P s)
    (hc : calloc ≠ 0) : s.heap calloc = none :=
  (hv.resolve_left hc).heap_none P.shellBlock_pos

/-- A valid `Shell_Invoke_Command` on the shell `FindShell` returns gets its block where nothing
lives. -/
theorem Event.Valid.invokeCommand_free {name : List Char} {clone : MIResult} {p : Addr}
    {d : ShellData} (hv : (Event.invokeCommand context name calloc clone).Valid P s)
    (hc : calloc ≠ 0) (hf : findShell s name = .ok p) (hd : s.shellAt p = .ok d) :
    s.heap calloc = none :=
  (hv.resolve_left hc p d hf hd).heap_none (P.commandBlock_pos _)

end Valid

/-- The states runs of the provider reach. -/
inductive Reachable (P : Platform) : State → Prop
  | init : Reachable P State.init
  | step {s s' : State} {e : Event} {posts : List Post} :
      Reachable P s → e.Valid P s → step P s e = .ok (s', posts) → Reachable P s'

/-- Events one after another from `s`: the last state and the posts of each event. -/
def run (P : Platform) : State → List Event → Except Fault (State × List (List Post))
  | s, [] => .ok (s, [])
  | s, e :: es =>
    match step P s e with
    | .error f => .error f
    | .ok (s', posts) =>
      match run P s' es with
      | .error f => .error f
      | .ok (s'', postss) => .ok (s'', posts :: postss)

/-- A platform to run the model on concrete inputs: both session structures 256 bytes, a base-64
library that decodes nothing, and an Xpress library that compresses nothing. -/
def Platform.sample : Platform where
  sizeofShellData := 256
  sizeofCommandData := 256
  sizeofShellData_lt := by decide
  sizeofCommandData_lt := by decide
  base64 := ⟨fun _ => none, fun _ => []⟩
  xpress := ⟨true, fun _ _ => .bufferTooSmall, fun _ _ => none⟩

/-- Every event of the run is valid in the state it meets. -/
def ValidRun (P : Platform) : State → List Event → Prop
  | _, [] => True
  | s, e :: es => e.Valid P s ∧ ∀ s' posts, step P s e = .ok (s', posts) → ValidRun P s' es

theorem ValidRun.cons {P : Platform} {s s' : State} {e : Event} {es : List Event} {posts : List Post}
    (hv : e.Valid P s) (h : step P s e = .ok (s', posts)) (hrest : ValidRun P s' es) :
    ValidRun P s (e :: es) :=
  ⟨hv, fun _ _ h' => by rw [h] at h'; cases h'; exact hrest⟩

theorem Reachable.run {P : Platform} {s s' : State} {postss : List (List Post)} :
    ∀ {es : List Event}, Reachable P s → ValidRun P s es → ShellProvider.run P s es = .ok (s', postss) →
      Reachable P s'
  | [], hs, _, h => by simp only [ShellProvider.run, Except.ok.injEq, Prod.mk.injEq] at h; exact h.1 ▸ hs
  | e :: es, hs, ⟨hv, hrest⟩, h => by
    simp only [ShellProvider.run] at h
    split at h
    · cases h
    · rename_i s₁ posts hstep
      split at h
      · cases h
      · rename_i s₂ postss' hrun
        simp only [Except.ok.injEq, Prod.mk.injEq] at h
        exact h.1 ▸ Reachable.run (Reachable.step hs hv hstep) (hrest _ _ hstep) hrun

end ShellProvider

import ShellProvider.Invariant

/-!
# Where each remote call is answered

A call the provider accepts without answering at once has to be held somewhere until the
operation that answers it: a Create in its shell's `requestContext`, an Invoke_Command in its
command's `commandContext`, a Receive in its command's `receiveContext`.

* No line of `Shell.c` writes `requestContext` or `commandContext`, so both slots are `NULL`
  in every reachable state (`requestSlots_empty`): an accepted Create or Invoke_Command is
  held nowhere, and `WSManPluginReportContext` later posts to `NULL`.
* `Shell_Invoke_Command` stores its own context in `receiveContext`, the Receive slot: every
  Receive on a fresh command is refused (`receive_refused_after_invokeCommand`).
* The `error:` label of `Shell_Invoke_Command` frees the command a shell already has when it
  refuses a second one (`invokeCommand_alreadyExists_frees`).

The runs at the end of each section start from one shell, created with context 1 at address
16 and declaring the single stream `stdout`; its command goes to `0x200000000`, clear of the
shell's block whatever the platform's structure sizes.
-/

namespace ShellProvider

variable {P : Platform}

/-! ## Sessions to run on -/

/-- `Shell_CreateInstance` with context 1 declaring the streams `names`, `calloc` returning
`p`. -/
def createAt (names : List (List Char)) (p : Addr) : Event :=
  .createInstance 1 (some (joinNames names)) false p true

/-- The state `createAt names p` leaves in `s`: the new shell at the head of the list, its
request handed to the backend. -/
def pushShell (P : Platform) (s : State) (names : List (List Char)) (p : Addr) : State :=
  { (s.alloc p (.shell (newShell P p s.shellList names false))).issue p with shellList := p }

section Push

variable {s : State} {names : List (List Char)} {p : Addr}

theorem step_createAt (hp : p ≠ 0) (hs : ∀ n ∈ names, ' ' ∉ n) (hl : names.getLast? ≠ some []) :
    step P s (createAt names p) = .ok (pushShell P s names p, []) :=
  shellCreateInstance_accept hp (extractOutboundStreams_joinNames hs hl)

theorem createAt_valid (hroom : s.Room P p P.shellBlock) : (createAt names p).Valid P s :=
  .inr hroom

theorem Reachable.pushShell (hr : Reachable P s) (hp0 : p ≠ 0) (hroom : s.Room P p P.shellBlock)
    (hs : ∀ n ∈ names, ' ' ∉ n) (hl : names.getLast? ≠ some []) :
    Reachable P (pushShell P s names p) :=
  .step hr (createAt_valid hroom) (step_createAt hp0 hs hl)

theorem step_createStdoutAt (hp : p ≠ 0) :
    step P s (createAt ["stdout".toList] p) = .ok (pushShell P s ["stdout".toList] p, []) :=
  step_createAt hp (by decide) (by decide)

end Push

/-- `calloc` may put the first shell at 16. -/
theorem room_first : State.init.Room P 16 P.shellBlock :=
  .init (by have := P.shellBlock_le; omega)

/-- A block from `0x200000000` on is clear of a first shell at 16, on every platform. -/
theorem room_firstShell {names : List (List Char)} {a n : ℕ} (ha : 0x200000000 ≤ a)
    (hn : a + n ≤ 2 ^ 64) : (pushShell P State.init names 16).Room P a n :=
  have := P.shellBlock_le
  ((State.Room.init hn).alloc (.inr (by show 16 + P.shellBlock ≤ a; omega))).of_heap_eq rfl

/-- So is the block of a command at `0x200000000`, whatever its `MI_Uint32` stream count. -/
theorem room_firstCommand {names : List (List Char)} {k : ℕ} (hk : k < 2 ^ 32) :
    (pushShell P State.init names 16).Room P 0x200000000 (P.commandBlock k) :=
  room_firstShell le_rfl (by have := P.commandBlock_le k; omega)

/-- One shell at 16 declaring `stdout`. -/
def oneShell (P : Platform) : State := pushShell P State.init ["stdout".toList] 16

theorem reachable_oneShell : Reachable P (oneShell P) :=
  .pushShell .init (by decide) room_first (by decide) (by decide)

/-! ## The request slots -/

/-- **No call is ever held in a session's request slot.** In every reachable state each shell's
`requestContext` and each command's `commandContext` is `NULL`. -/
theorem requestSlots_empty {s : State} (hs : Reachable P s) :
    (∀ a d, s.heap a = some (.shell d) → d.requestContext = 0) ∧
    (∀ a c, s.heap a = some (.command c) → c.commandContext = 0) :=
  ⟨fun _ _ h => (hs.inv.shell h).2.2, fun _ _ h => (hs.inv.command h).2.2⟩

theorem requestSlots_empty_oneShell :
    (∀ a d, (oneShell Platform.sample).heap a = some (.shell d) → d.requestContext = 0) ∧
    (∀ a c, (oneShell Platform.sample).heap a = some (.command c) → c.commandContext = 0) :=
  requestSlots_empty reachable_oneShell

/-! ## The Receive slot -/

/-- The shell of `oneShell`. -/
def shell16 (P : Platform) : ShellData := newShell P 16 0 ["stdout".toList] false

/-- The state an accepted `Shell_Invoke_Command` with `context` leaves in `s`: the command at
`c` attached to the shell `d` at `p`, its request handed to the backend. -/
def attachCommand (P : Platform) (s : State) (p : Addr) (d : ShellData) (c : Addr)
    (context : Ctx) : State :=
  ((s.alloc c (.command (newCommand P c p d context))).setShell p { d with command := c }).issue c

/-- `oneShell` after `Shell_Invoke_Command` with context 2, `calloc` returning `0x200000000`,
clear of the shell's block on every platform. -/
def withCommand (P : Platform) : State :=
  attachCommand P (oneShell P) 16 (shell16 P) 0x200000000 2

section Attach

variable {s : State} {p c : Addr} {d : ShellData} {context : Ctx}

theorem step_invokeCommand_head (hl : s.shellList = p) (hp : p ≠ 0)
    (hd : s.heap p = some (.shell d)) (hnc : d.command = 0) (hc : c ≠ 0) :
    step P s (.invokeCommand context d.shellId c .ok) = .ok (attachCommand P s p d c context, []) :=
  shellInvokeCommand_accept (findShell_head hl hp hd) hp (State.shellAt_eq_ok.mpr ⟨hp, hd⟩) hnc hc

theorem invokeCommand_head_valid (hl : s.shellList = p) (hp : p ≠ 0)
    (hd : s.heap p = some (.shell d)) (hroom : s.Room P c (P.commandBlock d.outboundStreamNames.length))
    (clone : MIResult) : (Event.invokeCommand context d.shellId c clone).Valid P s := by
  refine .inr fun q e hq he => ?_
  rw [findShell_head hl hp hd] at hq
  cases hq
  rw [State.shellAt_eq_ok.mpr ⟨hp, hd⟩] at he
  cases he
  exact hroom

theorem Reachable.attachCommand (hr : Reachable P s) (hl : s.shellList = p) (hp : p ≠ 0)
    (hd : s.heap p = some (.shell d)) (hnc : d.command = 0) (hc : c ≠ 0)
    (hroom : s.Room P c (P.commandBlock d.outboundStreamNames.length)) :
    Reachable P (attachCommand P s p d c context) :=
  .step hr (invokeCommand_head_valid hl hp hd hroom .ok) (step_invokeCommand_head hl hp hd hnc hc)

end Attach

theorem invokeCommand_oneShell :
    shellInvokeCommand P (oneShell P) 2 (P.shellIdAt 16) 0x200000000 .ok = .ok (withCommand P, []) :=
  step_invokeCommand_head (s := oneShell P) (p := 16) rfl (by decide) rfl rfl (by decide)

theorem invokeCommand_oneShell_valid :
    (Event.invokeCommand 2 (P.shellIdAt 16) 0x200000000 .ok).Valid P (oneShell P) :=
  invokeCommand_head_valid (s := oneShell P) (p := 16) (d := shell16 P) rfl (by decide) rfl
    (room_firstCommand (by show 1 < 2 ^ 32; decide)) .ok

/-- An accepted `Shell_Invoke_Command` keeps every shell, with its ID and link, where it was. -/
theorem keepsShells_invokeCommand {s : State} {calloc p : Addr} {d : ShellData} {c : CommandData}
    (hfree : s.heap calloc = none) (hp : s.heap p = some (.shell d)) :
    KeepsShells s (((s.alloc calloc (.command c)).setShell p { d with command := calloc }).issue
      calloc) := by
  intro q dq hq
  by_cases hqp : q = p
  · subst hqp
    rw [hp] at hq
    cases hq
    exact ⟨{ d with command := calloc }, by simp, rfl, rfl⟩
  · have hqc : q ≠ calloc := by rintro rfl; rw [hfree] at hq; cases hq
    exact ⟨dq, by simp [hqp, hqc, hq], rfl, rfl⟩

/-- **An accepted `Shell_Invoke_Command` fills the Receive slot.** It stores its own context in
the new command's `receiveContext`, so a Receive naming the command is refused with
`ALREADY_EXISTS` although no Receive was ever accepted. -/
theorem receive_refused_after_invokeCommand {s s₁ : State} {context context' : Ctx}
    {name : List Char} {calloc : Addr}
    (h : shellInvokeCommand P s context name calloc .ok = .ok (s₁, []))
    (hfree : s.heap calloc = none) (hctx : context ≠ 0) :
    shellInvokeReceive s₁ context' name (some (P.commandIdAt calloc)) =
      .ok (s₁, [.result context' .alreadyExists]) := by
  obtain ⟨p, d, hf, hp0, hd, ⟨c, -, -, -, hposts⟩ | ⟨-, -, hclone, -, -⟩ | ⟨-, hc0, -, rfl, -⟩⟩ :=
    shellInvokeCommand_eq_ok h
  · cases hposts
  · exact absurd rfl hclone
  have hp := (State.shellAt_eq_ok.mp hd).2
  have hne : calloc ≠ p := by rintro rfl; rw [hfree] at hp; cases hp
  have hf₁ := findShell_keeps
    (keepsShells_invokeCommand (c := newCommand P calloc p d context) hfree hp) rfl (Nat.le_succ _) hf
  rw [shellInvokeReceive, hf₁]
  simp [State.shellAt, State.commandAt, State.cell, hp0, hc0, hne, newCommand, hctx]

theorem receive_refused_withCommand :
    shellInvokeCommand Platform.sample (oneShell Platform.sample) 2
        (Platform.sample.shellIdAt 16) 0x200000000 .ok = .ok (withCommand Platform.sample, []) ∧
      (oneShell Platform.sample).heap 0x200000000 = none ∧ (2 : Ctx) ≠ 0 ∧
      shellInvokeReceive (withCommand Platform.sample) 3 (Platform.sample.shellIdAt 16)
        (some (Platform.sample.commandIdAt 0x200000000)) =
        .ok (withCommand Platform.sample, [.result 3 .alreadyExists]) :=
  ⟨invokeCommand_oneShell, rfl, by decide,
    receive_refused_after_invokeCommand invokeCommand_oneShell rfl (by decide)⟩

/-! ## Refusing a second command -/

/-- **Refusing a second command destroys the first.** When the shell named already has a
command, `Shell_Invoke_Command` answers `ALREADY_EXISTS` through its `error:` label, which
frees `thisShell->command` and clears the pointer: the attached command is gone. -/
theorem invokeCommand_alreadyExists_frees {s : State} {context : Ctx} {name : List Char}
    {calloc : Addr} {clone : MIResult} {p : Addr} {d : ShellData} {c : CommandData}
    (hf : findShell s name = .ok p) (hp : p ≠ 0) (hd : s.shellAt p = .ok d)
    (hc : s.commandAt d.command = .ok c) :
    ∃ s', shellInvokeCommand P s context name calloc clone =
        .ok (s', [.result context .alreadyExists]) ∧
      s'.shellAt p = .ok { d with command := 0 } ∧ s'.heap d.command = none := by
  obtain ⟨hc0, hcell⟩ := State.commandAt_eq_ok.mp hc
  have hne : d.command ≠ p := by
    rintro h; rw [h, (State.shellAt_eq_ok.mp hd).2] at hcell; cases hcell
  refine ⟨(s.erase d.command).setShell p { d with command := 0 }, ?_,
    State.shellAt_eq_ok.mpr ⟨hp, by simp⟩, by simp [hne]⟩
  rw [shellInvokeCommand, hf]
  split
  · contradiction
  · rename_i h; cases h; exact absurd rfl hp
  · rename_i h; cases h
    simp only [hd, hc0, hc, ne_eq, not_false_eq_true, ↓reduceIte]

theorem invokeCommand_alreadyExists_withCommand :
    ∃ s', shellInvokeCommand Platform.sample (withCommand Platform.sample) 4
        (Platform.sample.shellIdAt 16) 0x400000000 .ok = .ok (s', [.result 4 .alreadyExists]) ∧
      s'.shellAt 16 = .ok { shell16 Platform.sample with command := 0 } ∧
      s'.heap 0x200000000 = none :=
  invokeCommand_alreadyExists_frees (findShell_head (s := withCommand Platform.sample) (p := 16) rfl
    (by decide) rfl) (by decide) (State.shellAt_eq_ok.mpr ⟨by decide, rfl⟩)
    (State.commandAt_eq_ok.mpr ⟨by decide, rfl⟩)

end ShellProvider

import ShellProvider.Outcomes
import ShellProvider.Chain

/-!
# What every run keeps true of each session

Each cell of the heap stays in good standing (`CellOk`) along every run:

* a shell at `a` carries the ID printed from its own address and fits the address space, and
  its `requestContext` is `NULL`; a command likewise, with its `commandContext` `NULL`;
* what one event may do to the cell at one address is a `CellChange`: keep it, free it, update
  a session without touching its identity or request slot, or allocate a session in good
  standing where nothing lived;
* `step_cells` shows every event's effect is such a change at every address, from the outcome
  lemmas of the handlers, and `Reachable.inv` closes the induction over runs.

No line of `Shell.c` writes `requestContext` or `commandContext`, so both slots are `NULL` for
as long as their session lives.
-/

namespace ShellProvider

variable {P : Platform}

/-! ## Sessions in good standing -/

/-- What holds of the cell at `a` in every reachable state. -/
def CellOk (P : Platform) (a : Addr) : Option Cell → Prop
  | none => True
  | some (.shell d) =>
    d.shellId = P.shellIdAt a ∧ a + P.sizeofShellData < 2 ^ 64 ∧ d.requestContext = 0
  | some (.command c) =>
    c.commandId = P.commandIdAt a ∧ a + P.sizeofCommandData < 2 ^ 64 ∧ c.commandContext = 0

/-- Every cell of the heap is in good standing. -/
def Inv (P : Platform) (s : State) : Prop := ∀ a, CellOk P a (s.heap a)

/-! ## What one event does to one cell -/

/-- An update of a shell that keeps its ID and its request slot. -/
structure SameShell (d d' : ShellData) : Prop where
  shellId : d'.shellId = d.shellId
  requestContext : d'.requestContext = d.requestContext

/-- An update of a command that keeps its ID and its request slot. -/
structure SameCommand (c c' : CommandData) : Prop where
  commandId : c'.commandId = c.commandId
  commandContext : c'.commandContext = c.commandContext

/-- What one event may do to the cell at `a`. -/
inductive CellChange (P : Platform) (a : Addr) : Option Cell → Option Cell → Prop
  | keep (c : Option Cell) : CellChange P a c c
  | free (c : Cell) : CellChange P a (some c) none
  | shell {d d' : ShellData} : SameShell d d' → CellChange P a (some (.shell d)) (some (.shell d'))
  | command {c c' : CommandData} : SameCommand c c' →
      CellChange P a (some (.command c)) (some (.command c'))
  | fresh {c : Cell} : CellOk P a (some c) → CellChange P a none (some c)

theorem CellChange.cellOk {a : Addr} {c c' : Option Cell} :
    CellChange P a c c' → CellOk P a c → CellOk P a c'
  | .keep _, h => h
  | .free _, _ => trivial
  | .shell hs, h => by simpa only [CellOk, hs.shellId, hs.requestContext] using h
  | .command hs, h => by simpa only [CellOk, hs.commandId, hs.commandContext] using h
  | .fresh h, _ => h

/-- What one event does to the heap: an allowed change at every address; every address
`calloc` returned is remembered, and a cell appears only at one of them. -/
structure Cells (P : Platform) (s s' : State) : Prop where
  change : ∀ a, CellChange P a (s.heap a) (s'.heap a)
  allocs : ∀ a ∈ s.allocs, a ∈ s'.allocs
  fresh : ∀ a c, s.heap a = none → s'.heap a = some c → a ∈ s'.allocs

theorem Inv.of_cells {s s' : State} (hi : Inv P s) (h : Cells P s s') : Inv P s' :=
  fun a => (h.change a).cellOk (hi a)

theorem Allocated.of_cells {s s' : State} (ha : Allocated s) (h : Cells P s s') :
    Allocated s' := by
  intro a c hc
  rcases hs : s.heap a with _ | c₀
  · exact h.fresh a c hs hc
  · exact h.allocs a (ha a c₀ hs)

/-! ## One lemma per heap operation -/

section HeapOps

variable {s s₁ : State} {p : Addr}

theorem Cells.of_heap_eq (h : s₁.heap = s.heap) (ha : ∀ a ∈ s.allocs, a ∈ s₁.allocs) :
    Cells P s s₁ :=
  ⟨fun _ => h ▸ .keep _, ha, fun _ _ hn hc => by rw [h, hn] at hc; cases hc⟩

theorem Cells.refl (s : State) : Cells P s s := .of_heap_eq rfl fun _ h => h

/-- A step that leaves the heap and `allocs` of the result as they were. -/
theorem Cells.of_eq_right {s₂ : State} (h : Cells P s s₁) (hh : s₂.heap = s₁.heap)
    (ha : s₂.allocs = s₁.allocs) : Cells P s s₂ :=
  ⟨fun a => hh ▸ h.change a, fun a m => ha ▸ h.allocs a m,
    fun a c hn hc => ha ▸ h.fresh a c hn (hh ▸ hc)⟩

theorem Cells.issue (h : Cells P s s₁) (q : Addr) : Cells P s (s₁.issue q) :=
  h.of_eq_right rfl rfl

theorem Cells.withShellList (h : Cells P s s₁) (q : Addr) :
    Cells P s { s₁ with shellList := q } :=
  h.of_eq_right rfl rfl

theorem Cells.withRequests (h : Cells P s s₁) (r : List Addr) :
    Cells P s { s₁ with requests := r } :=
  h.of_eq_right rfl rfl

theorem Cells.setShell {d d' : ShellData} (h : Cells P s s₁) (hp : s.heap p = some (.shell d))
    (hs : SameShell d d') : Cells P s (s₁.setShell p d') := by
  refine ⟨fun a => ?_, h.allocs, fun a c hn hc => ?_⟩
  · by_cases ha : a = p
    · subst ha; simpa only [State.setShell_heap, if_pos, hp] using CellChange.shell hs
    · simpa only [State.setShell_heap, ha, if_false] using h.change a
  · have ha : a ≠ p := by rintro rfl; rw [hp] at hn; cases hn
    simp only [State.setShell_heap, ha, if_false] at hc
    exact h.fresh a c hn hc

theorem Cells.setCommand {c c' : CommandData} (h : Cells P s s₁)
    (hp : s.heap p = some (.command c)) (hs : SameCommand c c') :
    Cells P s (s₁.setCommand p c') := by
  refine ⟨fun a => ?_, h.allocs, fun a x hn hx => ?_⟩
  · by_cases ha : a = p
    · subst ha; simpa only [State.setCommand_heap, if_pos, hp] using CellChange.command hs
    · simpa only [State.setCommand_heap, ha, if_false] using h.change a
  · have ha : a ≠ p := by rintro rfl; rw [hp] at hn; cases hn
    simp only [State.setCommand_heap, ha, if_false] at hx
    exact h.fresh a x hn hx

theorem Cells.erase {c : Cell} (h : Cells P s s₁) (hp : s.heap p = some c) :
    Cells P s (s₁.erase p) := by
  refine ⟨fun a => ?_, h.allocs, fun a x hn hx => ?_⟩
  · by_cases ha : a = p
    · subst ha; simpa only [State.erase_heap, if_pos, hp] using CellChange.free c
    · simpa only [State.erase_heap, ha, if_false] using h.change a
  · by_cases ha : a = p
    · simp only [State.erase_heap, ha, if_true] at hx; cases hx
    · simp only [State.erase_heap, ha, if_false] at hx
      exact h.fresh a x hn hx

theorem Cells.alloc {c : Cell} (h : Cells P s s₁) (hp : s.heap p = none)
    (hc : CellOk P p (some c)) : Cells P s (s₁.alloc p c) := by
  refine ⟨fun a => ?_, fun a m => List.mem_cons_of_mem _ (h.allocs a m), fun a x hn hx => ?_⟩
  · by_cases ha : a = p
    · subst ha; simpa only [State.alloc_heap, if_pos, hp] using CellChange.fresh hc
    · simpa only [State.alloc_heap, ha, if_false] using h.change a
  · by_cases ha : a = p
    · exact ha ▸ List.mem_cons_self _ _
    · simp only [State.alloc_heap, ha, if_false] at hx
      exact List.mem_cons_of_mem _ (h.fresh a x hn hx)

end HeapOps

/-! ## What each handler does to the heap -/

/-- A shell `Shell_CreateInstance` builds where `calloc` found room is in good standing. -/
theorem newShell_cellOk {p next : Addr} {names : List (List Char)} {isCompressed : Bool}
    (hb : p + P.shellBlock ≤ 2 ^ 64) :
    CellOk P p (some (.shell (newShell P p next names isCompressed))) := by
  refine ⟨rfl, ?_, rfl⟩
  unfold Platform.shellBlock idLength Addr at *
  omega

/-- A command `Shell_Invoke_Command` builds where `calloc` found room is in good standing. -/
theorem newCommand_cellOk {c p : Addr} {d : ShellData} {context : Ctx} {n : ℕ}
    (hb : c + P.commandBlock n ≤ 2 ^ 64) :
    CellOk P c (some (.command (newCommand P c p d context))) := by
  refine ⟨rfl, ?_, rfl⟩
  unfold Platform.commandBlock idLength Addr at *
  omega

section Handlers

variable {s s' : State} {context : Ctx} {name : List Char} {posts : List Post}

theorem shellCreateInstance_cells {outputStreams : Option (List Char)} {isCompressed : Bool}
    {calloc : Addr} {namesOk : Bool}
    (hv : calloc = 0 ∨ s.Room P calloc P.shellBlock)
    (h : shellCreateInstance P s context outputStreams isCompressed calloc namesOk = .ok (s', posts)) :
    Cells P s s' := by
  obtain ⟨hh, -, -, ha, -⟩ | ⟨_, _, -, hc, -, rfl, -⟩ := shellCreateInstance_eq_ok h
  · exact .of_heap_eq hh ha
  · have hroom := hv.resolve_left hc
    exact (((Cells.refl s).alloc (hroom.heap_none P.shellBlock_pos) (newShell_cellOk hroom.1)).issue
      calloc).withShellList calloc

theorem State.relink_cells {s₁ : State} {previous next : Addr}
    (h : s.relink previous next = .ok s₁) : Cells P s s₁ := by
  obtain ⟨-, rfl⟩ | ⟨d, hd, rfl⟩ := State.relink_eq_ok h
  · exact .of_heap_eq rfl fun _ m => m
  · exact (Cells.refl s).setShell (State.shellAt_eq_ok.mp hd).2 ⟨rfl, rfl⟩

theorem shellDeleteInstance_cells (h : shellDeleteInstance s context name = .ok (s', posts)) :
    Cells P s s' := by
  obtain ⟨rfl, -⟩ | ⟨_, p, d, s₁, -, -, hd, hr, rfl, -⟩ := shellDeleteInstance_eq_ok h
  · exact .refl _
  · exact (State.relink_cells hr).erase (State.shellAt_eq_ok.mp hd).2

theorem shellInvokeCommand_cells {calloc : Addr} {clone : MIResult}
    (hv : calloc = 0 ∨ ∀ p d, findShell s name = .ok p → s.shellAt p = .ok d →
      s.Room P calloc (P.commandBlock d.outboundStreamNames.length))
    (h : shellInvokeCommand P s context name calloc clone = .ok (s', posts)) : Cells P s s' := by
  obtain ⟨p, d, hf, -, hd, hcase⟩ := shellInvokeCommand_eq_ok h
  have hp := (State.shellAt_eq_ok.mp hd).2
  obtain ⟨c, -, hc, rfl, -⟩ | ⟨-, -, -, rfl, -⟩ | ⟨-, h0, -, rfl, -⟩ := hcase
  · exact ((Cells.refl s).erase (State.commandAt_eq_ok.mp hc).2).setShell hp ⟨rfl, rfl⟩
  · exact .of_heap_eq rfl fun _ m => List.mem_cons_of_mem _ m
  · have hroom := hv.resolve_left h0 p d hf hd
    exact (((Cells.refl s).alloc (hroom.heap_none (P.commandBlock_pos _))
      (newCommand_cellOk hroom.1)).setShell hp
      (⟨rfl, rfl⟩ : SameShell d { d with command := calloc })).issue calloc

theorem shellInvokeSend_cells {req : SendRequest} {g : ℕ → UInt8}
    (h : shellInvokeSend P s context name req g = .ok (s', posts)) : Cells P s s' := by
  obtain ⟨rfl, -⟩ | ⟨_, d, c, _, _, -, -, -, hc, -, -, -, rfl, -⟩ := shellInvokeSend_eq_ok h
  · exact .refl _
  · exact (Cells.refl s).setCommand (State.commandAt_eq_ok.mp hc).2 ⟨rfl, rfl⟩

theorem shellInvokeReceive_cells {commandId : Option (List Char)}
    (h : shellInvokeReceive s context name commandId = .ok (s', posts)) : Cells P s s' := by
  obtain ⟨rfl, -⟩ | ⟨_, d, c, -, -, -, hc, -, -, rfl, -⟩ := shellInvokeReceive_eq_ok h
  · exact .refl _
  · exact (Cells.refl s).setCommand (State.commandAt_eq_ok.mp hc).2 ⟨rfl, rfl⟩

theorem shellInvokeSignal_cells {commandId : Option (List Char)} {receivePost signalPost : MIResult}
    (h : shellInvokeSignal s context name commandId receivePost signalPost = .ok (s', posts)) :
    Cells P s s' := by
  obtain ⟨p, d, c, -, -, hd, hc, rfl, -⟩ := shellInvokeSignal_eq_ok h
  exact ((Cells.refl s).erase (State.commandAt_eq_ok.mp hc).2).setShell
    (State.shellAt_eq_ok.mp hd).2 ⟨rfl, rfl⟩

theorem wsmanPluginReportContext_cells {request : Addr} {handle : Handle} {post : MIResult}
    (h : wsmanPluginReportContext s request handle post = .ok (s', posts)) : Cells P s s' := by
  obtain ⟨-, ⟨d, hd, -, -, ⟨-, rfl⟩ | ⟨-, rfl⟩⟩ | ⟨c, hc, -, rfl, -⟩⟩ :=
    wsmanPluginReportContext_eq_ok h
  · exact ((Cells.refl s).withRequests _).setShell hd ⟨rfl, rfl⟩
  · exact (((Cells.refl s).withRequests _).erase hd).withShellList _
  · exact ((Cells.refl s).withRequests _).setCommand hc ⟨rfl, rfl⟩

end Handlers

/-- **Every event changes each cell in an allowed way.** -/
theorem step_cells {s s' : State} {e : Event} {posts : List Post} (hv : e.Valid P s)
    (h : step P s e = .ok (s', posts)) : Cells P s s' := by
  cases e with
  | createInstance => exact shellCreateInstance_cells hv h
  | deleteInstance => exact shellDeleteInstance_cells h
  | getInstance => exact shellGetInstance_eq_ok h ▸ .refl _
  | enumerateInstances => exact shellEnumerateInstances_eq_ok h ▸ .refl _
  | modifyInstance | invokeConnect => cases h; exact .refl s
  | invokeCommand => exact shellInvokeCommand_cells hv h
  | invokeSend => exact shellInvokeSend_cells h
  | invokeReceive => exact shellInvokeReceive_cells h
  | invokeSignal => exact shellInvokeSignal_cells h
  | reportContext => exact wsmanPluginReportContext_cells h

theorem Inv.init : Inv P State.init := fun _ => trivial

theorem Inv.shell {s : State} (hi : Inv P s) {a : Addr} {d : ShellData}
    (h : s.heap a = some (.shell d)) :
    d.shellId = P.shellIdAt a ∧ a + P.sizeofShellData < 2 ^ 64 ∧ d.requestContext = 0 := by
  have := hi a
  rwa [h] at this

theorem Inv.command {s : State} (hi : Inv P s) {a : Addr} {c : CommandData}
    (h : s.heap a = some (.command c)) :
    c.commandId = P.commandIdAt a ∧ a + P.sizeofCommandData < 2 ^ 64 ∧ c.commandContext = 0 := by
  have := hi a
  rwa [h] at this

/-- Live shells at different addresses carry different IDs. -/
theorem Inv.eq_of_shellId {s : State} (hi : Inv P s) {a b : Addr} {d e : ShellData}
    (ha : s.heap a = some (.shell d)) (hb : s.heap b = some (.shell e))
    (h : e.shellId = d.shellId) : b = a := by
  obtain ⟨hda, ha', -⟩ := hi.shell ha
  obtain ⟨heb, hb', -⟩ := hi.shell hb
  rw [hda, heb] at h
  exact Nat.add_right_cancel (formatId_injective hb' ha' h)

/-- Live commands at different addresses carry different IDs. -/
theorem Inv.eq_of_commandId {s : State} (hi : Inv P s) {a b : Addr} {c k : CommandData}
    (ha : s.heap a = some (.command c)) (hb : s.heap b = some (.command k))
    (h : k.commandId = c.commandId) : b = a := by
  obtain ⟨hca, ha', -⟩ := hi.command ha
  obtain ⟨hkb, hb', -⟩ := hi.command hb
  rw [hca, hkb] at h
  exact Nat.add_right_cancel (formatId_injective hb' ha' h)

/-- **Every reachable state is in good standing.** -/
theorem Reachable.inv {s : State} (hs : Reachable P s) : Inv P s := by
  induction hs with
  | init => exact .init
  | step _ hv h ih => exact ih.of_cells (step_cells hv h)

/-- In every reachable state each live cell sits at an address `calloc` returned. -/
theorem Reachable.allocated {s : State} (hs : Reachable P s) : Allocated s := by
  induction hs with
  | init => intro _ _ h; cases h
  | step _ hv h ih => exact ih.of_cells (step_cells hv h)

end ShellProvider

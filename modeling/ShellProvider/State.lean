import ShellProvider.Basic

/-!
# Shells, commands and the heap they live in

`Shell.c` keeps its sessions in the C heap: a singly linked list of `ShellData` headed by
`Shell_Self.shellList`, each shell owning at most one `CommandData` through its `command`
pointer. Every reply channel the provider holds on to (`requestContext`, `commandContext`,
`receiveContext`) and every backend handle lives in those cells. The model keeps the heap
itself, so that what the code does with a stale or `NULL` pointer is visible:

* `State.heap` maps each live address to its cell; freed memory is `none`;
* reading a cell (`State.cell`, `shellAt`, `commandAt`) through `NULL`, freed memory or a
  cell of the other structure is a `Fault`;
* `State.allocs` and `State.requests` are ghost fields: the addresses `calloc` has returned,
  and the plug-in requests the backend still has to report on. `Shell.c` keeps neither.

`ShellChain s p l` is the list `l` of live shells reached from `p` through `nextShell`,
ending at `NULL`; `findShell` is `FindShell`.
-/

namespace ShellProvider

/-- `StreamData`: one outbound stream of a command and whether it has ended. -/
structure StreamData where
  streamName : List Char
  done : Bool
  deriving DecidableEq, Repr

/-- `CommandData`, less `numberOutboundStreams` (never written, never read) and the
`Shell_Command` instance (posted only through its `CommandId`). -/
structure CommandData where
  commandId : List Char
  outboundStreams : List StreamData
  shellData : Addr
  commandContext : Ctx
  receiveContext : Ctx
  pluginCommandContext : Handle
  deriving DecidableEq, Repr

/-- `ShellData`, less the back pointer `shell` (always the one `Shell_Self`) and the `Shell`
instance (posted only through its `Name`, the shell ID). -/
structure ShellData where
  nextShell : Addr
  shellId : List Char
  command : Addr
  outboundStreamNames : List (List Char)
  isCompressed : Bool
  requestContext : Ctx
  pluginShellContext : Handle
  deriving DecidableEq, Repr

/-- A live allocation: a shell or a command. -/
inductive Cell
  | shell (d : ShellData)
  | command (d : CommandData)
  deriving DecidableEq, Repr

/-- The provider's state. -/
structure State where
  /-- `Shell_Self.shellList` -/
  shellList : Addr
  /-- the live allocations -/
  heap : Addr → Option Cell
  /-- ghost: every address `calloc` has returned, newest first -/
  allocs : List Addr
  /-- ghost: the plug-in requests the backend has not reported on yet -/
  requests : List Addr

/-- The state after `Shell_Load`: an empty list, nothing allocated. -/
def State.init : State := ⟨0, fun _ => none, [], []⟩

namespace State

variable (s : State)

/-- The cell a pointer addresses; `NULL` and freed memory cannot be read. -/
def cell (p : Addr) : Except Fault Cell :=
  if p = 0 then .error .nullDeref
  else match s.heap p with
    | none => .error .useAfterFree
    | some c => .ok c

/-- The shell a `ShellData *` addresses. -/
def shellAt (p : Addr) : Except Fault ShellData :=
  match s.cell p with
  | .ok (.shell d) => .ok d
  | .ok (.command _) => .error .typeConfusion
  | .error f => .error f

/-- The command a `CommandData *` addresses. -/
def commandAt (p : Addr) : Except Fault CommandData :=
  match s.cell p with
  | .ok (.command d) => .ok d
  | .ok (.shell _) => .error .typeConfusion
  | .error f => .error f

/-- Storing a cell at a live address. -/
def write (p : Addr) (c : Cell) : State :=
  { s with heap := fun q => if q = p then some c else s.heap q }

/-- Storing a shell. -/
def setShell (p : Addr) (d : ShellData) : State := s.write p (.shell d)

/-- Storing a command. -/
def setCommand (p : Addr) (d : CommandData) : State := s.write p (.command d)

/-- `free(p)` of a live cell. -/
def erase (p : Addr) : State :=
  { s with heap := fun q => if q = p then none else s.heap q }

/-- A `calloc` that returned `p`, initialised to `c`. -/
def alloc (p : Addr) (c : Cell) : State :=
  { s.write p c with allocs := p :: s.allocs }

/-- A `calloc` that returned `p`, freed again before anything kept it. -/
def allocFree (p : Addr) : State :=
  { s with allocs := p :: s.allocs }

/-- A plug-in request handed to the backend. -/
def issue (p : Addr) : State :=
  { s with requests := p :: s.requests }

variable {s}

@[simp] theorem write_heap {p q : Addr} {c : Cell} :
    (s.write p c).heap q = if q = p then some c else s.heap q := rfl

@[simp] theorem erase_heap {p q : Addr} : (s.erase p).heap q = if q = p then none else s.heap q :=
  rfl

@[simp] theorem setShell_heap {p q : Addr} {d : ShellData} :
    (s.setShell p d).heap q = if q = p then some (.shell d) else s.heap q := rfl

@[simp] theorem setCommand_heap {p q : Addr} {d : CommandData} :
    (s.setCommand p d).heap q = if q = p then some (.command d) else s.heap q := rfl

@[simp] theorem alloc_heap {p q : Addr} {c : Cell} :
    (s.alloc p c).heap q = if q = p then some c else s.heap q := rfl

@[simp] theorem write_shellList {p : Addr} {c : Cell} : (s.write p c).shellList = s.shellList :=
  rfl
@[simp] theorem erase_shellList {p : Addr} : (s.erase p).shellList = s.shellList := rfl
@[simp] theorem setShell_shellList {p : Addr} {d : ShellData} :
    (s.setShell p d).shellList = s.shellList := rfl
@[simp] theorem setCommand_shellList {p : Addr} {d : CommandData} :
    (s.setCommand p d).shellList = s.shellList := rfl
@[simp] theorem alloc_shellList {p : Addr} {c : Cell} : (s.alloc p c).shellList = s.shellList :=
  rfl
@[simp] theorem allocFree_shellList {p : Addr} : (s.allocFree p).shellList = s.shellList := rfl
@[simp] theorem allocFree_heap {p : Addr} : (s.allocFree p).heap = s.heap := rfl
@[simp] theorem issue_shellList {p : Addr} : (s.issue p).shellList = s.shellList := rfl
@[simp] theorem issue_heap {p : Addr} : (s.issue p).heap = s.heap := rfl

theorem cell_eq_ok {p : Addr} {c : Cell} : s.cell p = .ok c ↔ p ≠ 0 ∧ s.heap p = some c := by
  unfold cell
  split
  · simp [*]
  · split <;> simp [*]

theorem shellAt_eq_ok {p : Addr} {d : ShellData} :
    s.shellAt p = .ok d ↔ p ≠ 0 ∧ s.heap p = some (.shell d) := by
  rw [← cell_eq_ok]
  unfold shellAt
  split <;> simp_all

theorem commandAt_eq_ok {p : Addr} {d : CommandData} :
    s.commandAt p = .ok d ↔ p ≠ 0 ∧ s.heap p = some (.command d) := by
  rw [← cell_eq_ok]
  unfold commandAt
  split <;> simp_all

theorem commandAt_zero : s.commandAt 0 = .error .nullDeref := by
  simp [commandAt, cell]

theorem shellAt_zero : s.shellAt 0 = .error .nullDeref := by
  simp [shellAt, cell]

end State

/-! ## The shell list -/

/-- `ShellChain s p l`: from `p`, the `nextShell` links pass the live shells `l` in order and
end at `NULL`. -/
inductive ShellChain (s : State) : Addr → List Addr → Prop
  | nil : ShellChain s 0 []
  | cons {p : Addr} {d : ShellData} {l : List Addr} : p ≠ 0 → s.heap p = some (.shell d) →
      ShellChain s d.nextShell l → ShellChain s p (p :: l)

/-- The loop of `FindShell` from `thisShell = p`, with `fuel` iterations left. -/
def findShellFrom (s : State) (shellId : List Char) : ℕ → Addr → Except Fault Addr
  | 0, _ => .error .divergence
  | fuel + 1, p =>
    if p = 0 then .ok 0
    else match s.shellAt p with
      | .error f => .error f
      | .ok d => if shellId = d.shellId then .ok p else findShellFrom s shellId fuel d.nextShell

/-- `FindShell`. The walk reads live shells only (anything else is a fault), and every live
cell sits at one of the `allocs.length` addresses `calloc` returned; so a walk that lasts
longer has revisited a shell and, being deterministic, goes round for ever. -/
def findShell (s : State) (shellId : List Char) : Except Fault Addr :=
  findShellFrom s shellId (s.allocs.length + 1) s.shellList

/-- The search loop of `Shell_DeleteInstance` from `thisShell = p`, whose predecessor is
`previous` (`0`: the link is `self->shellList`). It returns the predecessor and the shell
found, or `0` when none has the ID. -/
def findShellLink (s : State) (shellId : List Char) : ℕ → Addr → Addr → Except Fault (Addr × Addr)
  | 0, _, _ => .error .divergence
  | fuel + 1, previous, p =>
    if p = 0 then .ok (previous, 0)
    else match s.shellAt p with
      | .error f => .error f
      | .ok d =>
        if shellId = d.shellId then .ok (previous, p)
        else findShellLink s shellId fuel p d.nextShell

/-- `s'` keeps every shell of `s` where it was, with its ID and its link. -/
def KeepsShells (s s' : State) : Prop :=
  ∀ q d, s.heap q = some (.shell d) →
    ∃ d', s'.heap q = some (.shell d') ∧ d'.shellId = d.shellId ∧ d'.nextShell = d.nextShell

/-- A walk that finds its answer finds it again in any state that keeps the shells it passed,
with at least as many iterations. -/
theorem findShellFrom_keeps {s s' : State} {shellId : List Char} (hk : KeepsShells s s') :
    ∀ {fuel fuel' : ℕ} {p r : Addr}, fuel ≤ fuel' → findShellFrom s shellId fuel p = .ok r →
      findShellFrom s' shellId fuel' p = .ok r
  | 0, _, _, _, _, h => by cases h
  | _ + 1, 0, _, _, hle, _ => absurd hle (Nat.not_succ_le_zero _)
  | fuel + 1, fuel' + 1, p, r, hle, h => by
    unfold findShellFrom at h ⊢
    by_cases hp : p = 0
    · rwa [if_pos hp] at h ⊢
    rw [if_neg hp] at h ⊢
    split at h
    · cases h
    · rename_i d hd
      obtain ⟨d', hd', hid, hnext⟩ := hk p d (State.shellAt_eq_ok.mp hd).2
      rw [(State.shellAt_eq_ok (s := s')).mpr ⟨hp, hd'⟩]
      dsimp only
      rw [hid, hnext]
      split_ifs at h ⊢
      · exact h
      · exact findShellFrom_keeps hk (Nat.le_of_succ_le_succ hle) h

theorem findShell_keeps {s s' : State} {shellId : List Char} {r : Addr} (hk : KeepsShells s s')
    (hl : s'.shellList = s.shellList) (ha : s.allocs.length ≤ s'.allocs.length)
    (h : findShell s shellId = .ok r) : findShell s' shellId = .ok r := by
  unfold findShell at h ⊢
  rw [hl]
  exact findShellFrom_keeps hk (Nat.succ_le_succ ha) h

/-- A walk that answers with a non-`NULL` shell answers with a live shell carrying the ID. -/
theorem findShellFrom_found {s : State} {shellId : List Char} :
    ∀ {fuel : ℕ} {p r : Addr}, findShellFrom s shellId fuel p = .ok r → r ≠ 0 →
      ∃ d, s.heap r = some (.shell d) ∧ d.shellId = shellId
  | 0, _, _, h, _ => by cases h
  | fuel + 1, p, r, h, hr => by
    unfold findShellFrom at h
    split_ifs at h with hp
    · cases h
      exact absurd rfl hr
    split at h
    · cases h
    · rename_i d hd
      split_ifs at h with hid
      · cases h
        exact ⟨d, (State.shellAt_eq_ok.mp hd).2, hid.symm⟩
      · exact findShellFrom_found h hr

theorem findShell_found {s : State} {shellId : List Char} {r : Addr}
    (h : findShell s shellId = .ok r) (hr : r ≠ 0) :
    ∃ d, s.heap r = some (.shell d) ∧ d.shellId = shellId :=
  findShellFrom_found h hr

/-- `*previous = next`: relink the list past a shell. -/
def State.relink (s : State) (previous next : Addr) : Except Fault State :=
  if previous = 0 then .ok { s with shellList := next }
  else match s.shellAt previous with
    | .error f => .error f
    | .ok d => .ok (s.setShell previous { d with nextShell := next })

end ShellProvider

import ShellProvider.LiveList

/-!
# The shell registry

`Shell_Self.shellList` heads the list of live shells. Creates push at the head, deletes unlink
by search, and a rejected creation is unwound by `WSManPluginReportContext`:

* the unwinding sets `shellList` to the rejected shell's successor, as if the shell were the
  head: when newer shells sit in front of it they drop out of the list while still allocated
  (`rejection_unlinks_newer_shells`);
* an ID is the address of the ID buffer behind its session, so sessions alive together carry
  distinct IDs (`liveSessionIds_distinct`), but an address the allocator hands out again
  reissues the ID of the session freed there (`shellId_reissued`).
-/

namespace ShellProvider

variable {P : Platform}

/-! ## Unwinding a rejected creation -/

/-- Three shells at 16, `0x200000000` and `0x400000000`, each declaring `stdout`, the last
created first in the list; the blocks are apart on every platform. -/
def threeShells (P : Platform) : State :=
  pushShell P (twoShells P) ["stdout".toList] 0x400000000

/-- `threeShells` after the backend rejected the shell at `0x200000000`. -/
def middleRejected (P : Platform) : State :=
  { { threeShells P with requests := (threeShells P).requests.erase 0x200000000 }.erase
    0x200000000 with shellList := 16 }

/-- **A rejection drops the shells created after the rejected one.** The backend rejects the
middle shell of three: the unwinding points `shellList` at the first shell, so the newest one,
neither deleted nor rejected, is still allocated but no longer listed. The posts of the
callback go to the `NULL` `requestContext`. -/
theorem rejection_unlinks_newer_shells :
    ValidRun P State.init [createAt ["stdout".toList] 16, createAt ["stdout".toList] 0x200000000,
      createAt ["stdout".toList] 0x400000000, .reportContext 0x200000000 7 .failed] ∧
    run P State.init [createAt ["stdout".toList] 16, createAt ["stdout".toList] 0x200000000,
        createAt ["stdout".toList] 0x400000000, .reportContext 0x200000000 7 .failed] =
      .ok (middleRejected P,
        [[], [], [], [.inst 0 (.shell (P.shellIdAt 0x200000000)), .result 0 .failed]]) ∧
    ShellChain (middleRejected P) (middleRejected P).shellList [16] ∧
    ∃ d, (middleRejected P).heap 0x400000000 = some (.shell d) := by
  have hb := P.shellBlock_le
  have h₁ : step P State.init (createAt ["stdout".toList] 16) = .ok (oneShell P, []) :=
    step_createStdoutAt (by decide)
  have h₂ : step P (oneShell P) (createAt ["stdout".toList] 0x200000000) = .ok (twoShells P, []) :=
    step_createStdoutAt (by decide)
  have h₃ : step P (twoShells P) (createAt ["stdout".toList] 0x400000000) =
      .ok (threeShells P, []) :=
    step_createStdoutAt (by decide)
  have h₄ : step P (threeShells P) (.reportContext 0x200000000 7 .failed) = _ :=
    @wsmanPluginReportContext_reject (threeShells P) 0x200000000 _ 7 .failed (by decide) rfl
      (by show 16 % 256 ≠ 0; decide) (by decide)
  have hroom : (twoShells P).Room P 0x400000000 P.shellBlock :=
    ((room_firstShell (by decide) (by omega)).alloc
      (.inr (by show 0x200000000 + P.shellBlock ≤ 0x400000000; omega))).of_heap_eq rfl
  refine ⟨.cons (createAt_valid room_first) h₁ <|
    .cons (createAt_valid (room_firstShell le_rfl (by omega))) h₂ <|
    .cons (createAt_valid hroom) h₃ <|
    .cons (by show (0x200000000 : Addr) ∈ [0x400000000, 0x200000000, 16]; decide) h₄ trivial, ?_,
    .cons (by decide : (16 : Addr) ≠ 0) rfl .nil, _, rfl⟩
  simp only [run, h₁, h₂, h₃, h₄]
  rfl

/-! ## Identifiers -/

/-- **Sessions alive together carry distinct IDs.** In every reachable state two live shells
with one `shellId` are one shell, and two live commands with one `commandId` one command: an
ID prints the address of its session's ID buffer, and live sessions lie at distinct
addresses. -/
theorem liveSessionIds_distinct {s : State} (hs : Reachable P s) :
    (∀ a b d e, s.heap a = some (.shell d) → s.heap b = some (.shell e) →
      d.shellId = e.shellId → a = b) ∧
    (∀ a b c k, s.heap a = some (.command c) → s.heap b = some (.command k) →
      c.commandId = k.commandId → a = b) :=
  ⟨fun _ _ _ _ ha hb h => (hs.inv.eq_of_shellId ha hb h.symm).symm,
    fun _ _ _ _ ha hb h => (hs.inv.eq_of_commandId ha hb h.symm).symm⟩

theorem liveSessionIds_distinct_twoShells :
    (∀ a b d e, (twoShells Platform.sample).heap a = some (.shell d) →
      (twoShells Platform.sample).heap b = some (.shell e) → d.shellId = e.shellId → a = b) ∧
    (∀ a b c k, (twoShells Platform.sample).heap a = some (.command c) →
      (twoShells Platform.sample).heap b = some (.command k) → c.commandId = k.commandId →
        a = b) :=
  liveSessionIds_distinct headReachable_twoShells.reachable

/-- `oneShell` after `Shell_DeleteInstance` of its shell. -/
def oneShellDeleted (P : Platform) : State := { oneShell P with shellList := 0 }.erase 16

/-- A shell declaring `stdout stderr` created at 16 after the first one was deleted. -/
def reissued (P : Platform) : State :=
  pushShell P (oneShellDeleted P) ["stdout".toList, "stderr".toList] 16

/-- Create a shell at 16, delete it by its ID, then create another at 16. -/
def reissueRun (P : Platform) : List Event :=
  [createAt ["stdout".toList] 16, .deleteInstance 5 (P.shellIdAt 16),
    createAt ["stdout".toList, "stderr".toList] 16]

/-- The deleted shell's ID names the shell created after it: the second shell, declaring other
streams, carries the first one's ID, and `FindShell` resolves that ID to it. -/
theorem shellId_reissued :
    ValidRun Platform.sample State.init (reissueRun Platform.sample) ∧
    run Platform.sample State.init (reissueRun Platform.sample) =
      .ok (reissued Platform.sample, [[], [.result 5 .ok], []]) ∧
    (reissued Platform.sample).heap 16 =
      some (.shell (newShell Platform.sample 16 0 ["stdout".toList, "stderr".toList] false)) ∧
    (newShell Platform.sample 16 0 ["stdout".toList, "stderr".toList] false).shellId =
      (shell16 Platform.sample).shellId ∧
    findShell (reissued Platform.sample) (shell16 Platform.sample).shellId = .ok 16 := by
  have h₁ : step Platform.sample State.init (createAt ["stdout".toList] 16) =
      .ok (oneShell Platform.sample, []) := step_createStdoutAt (by decide)
  have h₂ : step Platform.sample (oneShell Platform.sample)
      (.deleteInstance 5 (Platform.sample.shellIdAt 16)) =
      .ok (oneShellDeleted Platform.sample, [.result 5 .ok]) :=
    shellDeleteInstance_head (s := oneShell Platform.sample) rfl (by decide : (16 : Addr) ≠ 0) rfl
  have h₃ : step Platform.sample (oneShellDeleted Platform.sample)
      (createAt ["stdout".toList, "stderr".toList] 16) = .ok (reissued Platform.sample, []) :=
    step_createAt (by decide) (by decide) (by decide)
  -- the delete freed the only block, so 16 is free again
  have hroom : (oneShellDeleted Platform.sample).Room Platform.sample 16 Platform.sample.shellBlock :=
    room_first.of_heap_eq (funext fun q => by
      by_cases hq : q = 16 <;> simp [oneShellDeleted, oneShell, pushShell, State.init, hq])
  refine ⟨.cons (createAt_valid room_first) h₁ <| .cons trivial h₂ <|
    .cons (createAt_valid hroom) h₃ trivial, ?_, rfl, rfl,
    findShell_head (s := reissued Platform.sample) (p := 16)
      (d := newShell Platform.sample 16 0 ["stdout".toList, "stderr".toList] false) rfl (by decide)
      rfl⟩
  simp only [reissueRun, run, h₁, h₂, h₃]

end ShellProvider

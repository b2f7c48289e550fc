import ShellProvider.Registry

/-!
# Reads of sessions that are not there

Where the handlers of `Shell.c` read memory the state does not back:

* Send, Receive and Signal compare the command ID with `thisShell->command->commandId`
  without checking that the shell has a command, and the `error:` labels of Invoke_Command
  and Signal read through `thisShell` when `FindShell` found nothing
  (`absent_session_faults`);
* the end-of-stream loop of Send marks the first stream whose name *differs* from the one
  sent (`endOfStream_marks_other_stream`);
* an empty `OutputStreams` declaration is accepted with no stream, and Signal then reads
  `outboundStreams[0]` of an empty table (`emptyDeclaration_signal_faults`);
* `WSManPluginReportContext` picks its branch by an `isShell` byte that `ShellData` does not
  have: for the first shell of a list that byte is `NULL`'s, and the shell is read as a
  command (`reportContext_first_shell_faults`).
-/

namespace ShellProvider

variable {P : Platform}

/-! ## Absent sessions -/

/-- **Absent sessions are dereferenced.** When `FindShell` finds no shell, Invoke_Command and
Signal read through the `NULL` shell; when the shell found has no command, Send and Receive
carrying a command ID, and every Signal, read through the `NULL` command. -/
theorem absent_session_faults {s : State} {name : List Char} {context : Ctx} :
    (findShell s name = .ok 0 →
      (∀ calloc clone, shellInvokeCommand P s context name calloc clone = .error .nullDeref) ∧
      ∀ commandId receivePost signalPost,
        shellInvokeSignal s context name commandId receivePost signalPost = .error .nullDeref) ∧
    (∀ p d, findShell s name = .ok p → p ≠ 0 → s.shellAt p = .ok d → d.command = 0 →
      (∀ req g, req.commandId ≠ none →
        shellInvokeSend P s context name req g = .error .nullDeref) ∧
      (∀ cid, shellInvokeReceive s context name (some cid) = .error .nullDeref) ∧
      ∀ commandId receivePost signalPost,
        shellInvokeSignal s context name commandId receivePost signalPost = .error .nullDeref) := by
  refine ⟨fun hf => ⟨fun _ _ => by rw [shellInvokeCommand, hf], fun _ _ _ => by
    rw [shellInvokeSignal, hf]; rfl⟩, fun p d hf hp hd hc => ⟨fun req g hreq => ?_, fun cid => ?_,
    fun _ _ _ => ?_⟩⟩
  · obtain ⟨cid, hcid⟩ := Option.ne_none_iff_exists'.mp hreq
    simp only [shellInvokeSend, hf, hp, hcid, hd, hc, State.commandAt_zero, ok_bind, error_bind,
      pure_bind, ↓reduceIte]
  · simp only [shellInvokeReceive, hf, hp, hd, hc, State.commandAt_zero, ok_bind, error_bind,
      pure_bind, ↓reduceIte]
  · simp only [shellInvokeSignal, hf, hp, hd, hc, State.commandAt_zero, ok_bind, error_bind,
      pure_bind, ↓reduceIte]

theorem absent_session_faults_oneShell :
    shellInvokeCommand Platform.sample (oneShell Platform.sample) 3 [] 0x200000000 .ok =
      .error .nullDeref ∧
    shellInvokeSend Platform.sample (oneShell Platform.sample) 3 (Platform.sample.shellIdAt 16)
        ⟨some [], "stdout".toList, true, none, 0⟩ (fun _ => 0) = .error .nullDeref ∧
    shellInvokeReceive (oneShell Platform.sample) 3 (Platform.sample.shellIdAt 16) (some []) =
      .error .nullDeref :=
  have h := (@absent_session_faults Platform.sample (oneShell Platform.sample)
    (Platform.sample.shellIdAt 16) 3).2 16 _
    (findShell_head (s := oneShell Platform.sample) (p := 16) rfl (by decide) rfl)
    (by decide) (State.shellAt_eq_ok.mpr ⟨by decide, rfl⟩) rfl
  ⟨((@absent_session_faults Platform.sample (oneShell Platform.sample) [] 3).1 rfl).1 0x200000000 .ok,
    h.1 _ _ (by decide), h.2.1 []⟩

/-! ## Ending a stream -/

/-- The shell at 16 declaring `stdout stderr`. -/
def shellTwoStreams (P : Platform) : ShellData :=
  newShell P 16 0 ["stdout".toList, "stderr".toList] false

/-- That shell alone in the list, with a command at `0x200000000` invoked with context 2. -/
def twoStreams (P : Platform) : State :=
  attachCommand P (pushShell P State.init ["stdout".toList, "stderr".toList] 16) 16
    (shellTwoStreams P) 0x200000000 2

theorem reachable_twoStreams : Reachable P (twoStreams P) :=
  .attachCommand (.pushShell .init (by decide) room_first (by decide) (by decide)) rfl
    (by decide) rfl rfl (by decide) (room_firstCommand (by show 2 < 2 ^ 32; decide))

/-- A Send ending `stdout` on the command at `0x200000000`, without data. -/
def endStdout (P : Platform) : SendRequest :=
  ⟨some (P.commandIdAt 0x200000000), "stdout".toList, true, none, 0⟩

/-- **Ending `stdout` marks `stderr` done.** On a command whose streams are `stdout stderr`, a
Send with `endOfStream` for `stdout` leaves `stdout` running and marks `stderr` done: the loop
marks the first stream whose name differs from the one sent. -/
theorem endOfStream_marks_other_stream (g : ℕ → UInt8) :
    Reachable P (twoStreams P) ∧ ∃ posts,
      step P (twoStreams P) (.invokeSend 3 (P.shellIdAt 16) (endStdout P) g) =
        .ok ((twoStreams P).setCommand 0x200000000
          { newCommand P 0x200000000 16 (shellTwoStreams P) 2 with
            receiveContext := 0,
            outboundStreams := [⟨"stdout".toList, false⟩, ⟨"stderr".toList, true⟩] }, posts) := by
  refine ⟨reachable_twoStreams, ?_⟩
  have hf : findShell (twoStreams P) (P.shellIdAt 16) = .ok 16 :=
    findShell_head (d := { shellTwoStreams P with command := 0x200000000 }) rfl (by decide) rfl
  rw [step]
  exact ⟨_, shellInvokeSend_found hf (by decide) (State.shellAt_eq_ok.mpr ⟨by decide, rfl⟩)
    ((State.commandAt_eq_ok (p := 0x200000000)).mpr ⟨by decide, rfl⟩) rfl (by rfl) (by rfl)⟩

/-! ## An empty declaration -/

/-- The shell at 16 declaring no stream. -/
def shellNoStreams (P : Platform) : ShellData := newShell P 16 0 [] false

/-- That shell alone in the list, with a command at `0x200000000` invoked with context 2. -/
def noStreams (P : Platform) : State :=
  attachCommand P (pushShell P State.init [] 16) 16 (shellNoStreams P) 0x200000000 2

/-- **An empty declaration is accepted, and Signal then reads past the stream table.**
`Shell_CreateInstance` accepts `OutputStreams = ""`: the counting loop finds no name, so the
shell declares no stream and its command gets an empty table. The command's `receiveContext`
is taken (by the Invoke_Command call), so Signal reads `outboundStreams[0]`. -/
theorem emptyDeclaration_signal_faults :
    step P State.init (.createInstance 1 (some []) false 16 true) =
      .ok (pushShell P State.init [] 16, []) ∧
    Reachable P (noStreams P) ∧
    step P (noStreams P) (.invokeSignal 3 (P.shellIdAt 16) none .ok .ok) = .error .outOfBounds := by
  have hnames : ∀ n ∈ ([] : List (List Char)), ' ' ∉ n := fun _ h => absurd h (List.not_mem_nil _)
  refine ⟨step_createAt (by decide) hnames (by decide),
    .attachCommand (.pushShell .init (by decide) room_first hnames (by decide)) rfl
      (by decide) rfl rfl (by decide) (room_firstCommand (by show 0 < 2 ^ 32; decide)), ?_⟩
  have hf : findShell (noStreams P) (P.shellIdAt 16) = .ok 16 :=
    findShell_head (d := { shellNoStreams P with command := 0x200000000 }) rfl (by decide) rfl
  rw [step]
  exact Eq.trans (shellInvokeSignal_found hf (by decide) (State.shellAt_eq_ok.mpr ⟨by decide, rfl⟩)
    ((State.commandAt_eq_ok (p := 0x200000000)).mpr ⟨by decide, rfl⟩) fun _ h => nomatch h) rfl

/-! ## The `isShell` byte -/

/-- **The first shell of a list is read as a command.** A shell created into an empty list has
a `NULL` `nextShell`, and its low byte is where `WSManPluginReportContext` reads `isShell`: the
callback for the shell's request takes the command branch and faults, whatever the backend
reports. -/
theorem reportContext_first_shell_faults {s s' : State} {context : Ctx}
    {outputStreams : Option (List Char)} {isCompressed : Bool} {calloc : Addr} {namesOk : Bool}
    {handle : Handle} {post : MIResult} (h0 : s.shellList = 0)
    (h : shellCreateInstance P s context outputStreams isCompressed calloc namesOk = .ok (s', [])) :
    wsmanPluginReportContext s' calloc handle post = .error .typeConfusion := by
  obtain ⟨-, -, -, -, _, -, hposts⟩ | ⟨_, _, -, hc, -, rfl, -⟩ := shellCreateInstance_eq_ok h
  · cases hposts
  · simp [wsmanPluginReportContext, State.cell, hc, isShellByte, newShell, h0]

theorem reportContext_oneShell_faults :
    State.init.shellList = 0 ∧
    shellCreateInstance Platform.sample State.init 1 (some "stdout".toList) false 16 true =
      .ok (oneShell Platform.sample, []) ∧
    wsmanPluginReportContext (oneShell Platform.sample) 16 7 .ok = .error .typeConfusion :=
  have h : shellCreateInstance Platform.sample State.init 1 (some "stdout".toList) false 16 true =
      .ok (oneShell Platform.sample, []) :=
    step_createStdoutAt (P := Platform.sample) (s := State.init) (p := 16) (by decide)
  ⟨rfl, h, reportContext_first_shell_faults rfl h⟩

end ShellProvider

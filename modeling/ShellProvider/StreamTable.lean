import ShellProvider.Calls

/-!
# The stream tables of commands

`Shell_Invoke_Command` gives its command one `StreamData` entry for each stream the shell
declared, in order (`newCommand`); after that only the end-of-stream loop of
`Shell_Invoke_Send` writes the table, setting one `done` flag. The loop runs
`outboundStreamNamesCount` times, the length of the shell's declaration, over the command's
table, and marks the first entry whose name *differs* from the one sent.

* `markStreamDone_append`: run over as many entries as are left, the loop is `markFirstOther`.
* `Declared`: every attached command's table carries its shell's declared names, in order.
  Every event keeps it (`Declared.step`), so the loop never reads past the table
  (`Declared.markStreamDone`).
* `heldCall_answered`: in every run that rejects only the head of the list, a Send naming a
  shell's attached command succeeds whenever its data decodes without undefined behaviour, and
  answers the call held in the command's receive slot.
-/

namespace ShellProvider

variable {P : Platform}

/-! ## The end-of-stream loop -/

/-- The table with its first entry whose name differs from `streamName` marked done. -/
def markFirstOther (streamName : List Char) : List StreamData → List StreamData
  | [] => []
  | sd :: rest =>
    if streamName ≠ sd.streamName then { sd with done := true } :: rest
    else sd :: markFirstOther streamName rest

@[simp] theorem map_streamName_markFirstOther (streamName : List Char) :
    ∀ streams : List StreamData,
      (markFirstOther streamName streams).map StreamData.streamName =
        streams.map StreamData.streamName
  | [] => rfl
  | sd :: rest => by
    unfold markFirstOther
    split_ifs
    · rfl
    · simp only [List.map_cons, map_streamName_markFirstOther streamName rest]

/-- **The loop marks the first entry whose name differs.** From entry `pre.length`, with one
iteration for each entry left, `Shell_Invoke_Send`'s end-of-stream loop reads only entries of
the table and returns it with the first later entry whose name differs from the one sent
marked done. -/
theorem markStreamDone_append (streamName : List Char) :
    ∀ pre rest : List StreamData,
      markStreamDone streamName (pre ++ rest) pre.length rest.length =
        .ok (pre ++ markFirstOther streamName rest)
  | pre, [] => by simp [markStreamDone, markFirstOther]
  | pre, sd :: rest => by
    have hget : (pre ++ sd :: rest)[pre.length]? = some sd := by
      rw [List.getElem?_append_right (Nat.le_refl _), Nat.sub_self, List.getElem?_cons_zero]
    simp only [markStreamDone, List.length_cons, hget, markFirstOther]
    split_ifs
    · rw [List.set_append_right _ _ (Nat.le_refl _), Nat.sub_self]; rfl
    · have h := markStreamDone_append streamName (pre ++ [sd]) rest
      simp only [List.append_assoc, List.singleton_append, List.length_append,
        List.length_singleton] at h
      exact h

/-! ## Tables and declarations -/

/-- Every attached command's table carries its shell's declared names, in order. -/
def Declared (s : State) : Prop :=
  ∀ p d c, s.heap p = some (.shell d) → d.command ≠ 0 → s.heap d.command = some (.command c) →
    c.outboundStreams.map StreamData.streamName = d.outboundStreamNames

section Declared

variable {s s' : State} {p a : Addr} {d : ShellData} {c : CommandData}

/-- The loop over an attached command's table, with the count of its shell's declaration. -/
theorem Declared.markStreamDone (h : Declared s) (hp : s.heap p = some (.shell d))
    (h0 : d.command ≠ 0) (hc : s.heap d.command = some (.command c)) (streamName : List Char) :
    ShellProvider.markStreamDone streamName c.outboundStreams 0 d.outboundStreamNames.length =
      .ok (markFirstOther streamName c.outboundStreams) := by
  rw [← h p d c hp h0 hc, List.length_map]
  exact markStreamDone_append streamName [] c.outboundStreams

/-- A state whose commands are old commands with the same names, and whose shells are old
shells with the same command and declaration or shells with no command, keeps the tables
declared. -/
theorem Declared.of_shells (h : Declared s)
    (hk : ∀ a c', s'.heap a = some (.command c') → ∃ c, s.heap a = some (.command c) ∧
      c'.outboundStreams.map StreamData.streamName = c.outboundStreams.map StreamData.streamName)
    (hs : ∀ q e', s'.heap q = some (.shell e') → e'.command = 0 ∨
      ∃ e, s.heap q = some (.shell e) ∧ e'.command = e.command ∧
        e'.outboundStreamNames = e.outboundStreamNames) :
    Declared s' := by
  intro q e' c' he' h0 hc'
  obtain h0' | ⟨e, he, hcmd, hnames⟩ := hs q e' he'
  · exact absurd h0' h0
  obtain ⟨c, hc, hmap⟩ := hk _ c' hc'
  rw [hmap, hnames]
  exact h q e c he (hcmd ▸ h0) (hcmd ▸ hc)

theorem Declared.of_heap_eq (h : Declared s) (hh : s'.heap = s.heap) : Declared s' := by
  intro q e c' he h0 hc
  rw [hh] at he hc
  exact h q e c' he h0 hc

/-- Rewriting a shell keeps the tables declared if it keeps the shell's command and declaration,
or leaves it with none. -/
theorem Declared.setShell {n : ShellData} (h : Declared s) (hp : s.heap p = some (.shell d))
    (hn : n.command = 0 ∨ n.command = d.command ∧ n.outboundStreamNames = d.outboundStreamNames) :
    Declared (s.setShell p n) := by
  refine h.of_shells (fun a c' hac => ⟨c', ?_, rfl⟩) fun q e' he' => ?_
  · have : a ≠ p := by rintro rfl; simp at hac
    simpa [this] using hac
  · by_cases hq : q = p
    · subst hq
      rw [State.setShell_heap, if_pos rfl] at he'
      cases he'
      exact hn.imp_right fun ⟨h₁, h₂⟩ => ⟨d, hp, h₁, h₂⟩
    · simp only [State.setShell_heap, if_neg hq] at he'
      exact .inr ⟨e', he', rfl, rfl⟩

theorem Declared.setCommand {n : CommandData} (h : Declared s) (ha : s.heap a = some (.command c))
    (hn : n.outboundStreams.map StreamData.streamName =
      c.outboundStreams.map StreamData.streamName) :
    Declared (s.setCommand a n) := by
  refine h.of_shells (fun b c' hb => ?_) fun q e' he' => .inr ⟨e', ?_, rfl, rfl⟩
  · by_cases hba : b = a
    · subst hba
      rw [State.setCommand_heap, if_pos rfl] at hb
      cases hb
      exact ⟨c, ha, hn⟩
    · exact ⟨c', by simpa [hba] using hb, rfl⟩
  · have : q ≠ a := by rintro rfl; simp at he'
    simpa [this] using he'

theorem Declared.erase (h : Declared s) : Declared (s.erase p) := by
  refine h.of_shells (fun a c' hac => ⟨c', ?_, rfl⟩) fun q e' he' => .inr ⟨e', ?_, rfl, rfl⟩
  · have : a ≠ p := by rintro rfl; simp at hac
    simpa [this] using hac
  · have : q ≠ p := by rintro rfl; simp at he'
    simpa [this] using he'

theorem Declared.allocShell (h : Declared s) (hfree : s.heap p = none) (hd : d.command = 0) :
    Declared (s.alloc p (.shell d)) := by
  refine h.of_shells (fun a c' hac => ⟨c', ?_, rfl⟩) fun q e' he' => ?_
  · have : a ≠ p := by rintro rfl; simp at hac
    simpa [this] using hac
  · by_cases hq : q = p
    · subst hq
      rw [State.alloc_heap, if_pos rfl] at he'
      cases he'
      exact .inl hd
    · simp only [State.alloc_heap, if_neg hq] at he'
      exact .inr ⟨e', he', rfl, rfl⟩

/-- **A new command gets a table for its shell's declaration.** The pointers between shells and
commands show that no other shell pointed at the free address. -/
theorem Declared.attach {cmd : CommandData} (hl : Linked s) (h : Declared s)
    (hp : s.heap p = some (.shell d)) (hfree : s.heap a = none)
    (hn : cmd.outboundStreams.map StreamData.streamName = d.outboundStreamNames) :
    Declared ((s.alloc a (.command cmd)).setShell p { d with command := a }) := by
  have hap : a ≠ p := by rintro rfl; rw [hp] at hfree; cases hfree
  intro q e' c' he' h0 hc'
  by_cases hq : q = p
  · subst hq
    rw [State.setShell_heap, if_pos rfl] at he'
    cases he'
    simp only [State.setShell_heap, State.alloc_heap, if_neg hap, if_true,
      Option.some.injEq, Cell.command.injEq] at hc'
    exact hc' ▸ hn
  have hqa : q ≠ a := by rintro rfl; simp [hq] at he'
  simp only [State.setShell_heap, State.alloc_heap, if_neg hq, if_neg hqa] at he'
  obtain ⟨c₁, hc₁, -⟩ := (hl q e' he').resolve_left h0
  have hne : e'.command ≠ p := by rintro h'; rw [h', hp] at hc₁; cases hc₁
  have hna : e'.command ≠ a := by rintro h'; rw [h', hfree] at hc₁; cases hc₁
  simp only [State.setShell_heap, State.alloc_heap, if_neg hne, if_neg hna] at hc'
  exact h q e' c' he' h0 hc'

/-- **No event breaks the tables.** -/
theorem Declared.step {e : Event} {posts : List Post} (hl : Linked s) (h : Declared s)
    (hv : e.Valid P s) (hstep : step P s e = .ok (s', posts)) : Declared s' := by
  cases e with
  | createInstance =>
    obtain ⟨hh, -⟩ | ⟨_, _, -, hc, -, rfl, -⟩ := shellCreateInstance_eq_ok hstep
    · exact h.of_heap_eq hh
    · exact .of_heap_eq (h.allocShell (hv.createInstance_free hc) rfl) rfl
  | deleteInstance =>
    obtain ⟨rfl, -⟩ | ⟨previous, p, d, s₁, -, -, -, hr, rfl, -⟩ := shellDeleteInstance_eq_ok hstep
    · exact h
    obtain ⟨-, rfl⟩ | ⟨dr, hdr, rfl⟩ := State.relink_eq_ok hr
    · exact (h.of_heap_eq rfl).erase
    · exact (h.setShell (n := { dr with nextShell := d.nextShell }) (State.shellAt_eq_ok.mp hdr).2
        (.inr ⟨rfl, rfl⟩)).erase
  | getInstance => exact shellGetInstance_eq_ok hstep ▸ h
  | enumerateInstances => exact shellEnumerateInstances_eq_ok hstep ▸ h
  | modifyInstance | invokeConnect => cases hstep; exact h
  | invokeCommand =>
    obtain ⟨p, d, hf, -, hd, ⟨c, -, hc, rfl, -⟩ | ⟨-, -, -, rfl, -⟩ | ⟨-, hc, -, rfl, -⟩⟩ :=
      shellInvokeCommand_eq_ok hstep
    · have hp := (State.shellAt_eq_ok.mp hd).2
      have hk := (State.commandAt_eq_ok.mp hc).2
      have hpk : p ≠ d.command := by rintro h'; rw [h', hk] at hp; cases hp
      exact h.erase.setShell (d := d) (by simp [hpk, hp]) (.inl rfl)
    · exact h.of_heap_eq rfl
    · exact .of_heap_eq (h.attach hl (State.shellAt_eq_ok.mp hd).2 (hv.invokeCommand_free hc hf hd)
        (by simp [newCommand, Function.comp_def])) rfl
  | invokeSend =>
    obtain ⟨rfl, -⟩ | ⟨p, d, c, streams, _, -, -, hd, hc, -, hstr, -, rfl, -⟩ :=
      shellInvokeSend_eq_ok hstep
    · exact h
    have hc := State.commandAt_eq_ok.mp hc
    refine h.setCommand hc.2 ?_
    split at hstr
    · rw [h.markStreamDone (State.shellAt_eq_ok.mp hd).2 hc.1 hc.2] at hstr
      cases hstr
      exact map_streamName_markFirstOther _ _
    · cases hstr
      rfl
  | invokeReceive =>
    obtain ⟨rfl, -⟩ | ⟨_, _, _, -, -, -, hc, -, -, rfl, -⟩ := shellInvokeReceive_eq_ok hstep
    · exact h
    · exact h.setCommand (State.commandAt_eq_ok.mp hc).2 rfl
  | invokeSignal =>
    obtain ⟨p, d, c, -, -, hd, hc, rfl, -⟩ := shellInvokeSignal_eq_ok hstep
    have hp := (State.shellAt_eq_ok.mp hd).2
    have hk := (State.commandAt_eq_ok.mp hc).2
    have hpk : p ≠ d.command := by rintro h'; rw [h', hk] at hp; cases hp
    exact h.erase.setShell (d := d) (by simp [hpk, hp]) (.inl rfl)
  | reportContext =>
    obtain ⟨-, ⟨d, hd, -, -, ⟨-, rfl⟩ | ⟨-, rfl⟩⟩ | ⟨c, hc, -, rfl, -⟩⟩ :=
      wsmanPluginReportContext_eq_ok hstep
    · exact .setShell (h.of_heap_eq rfl) hd (.inr ⟨rfl, rfl⟩)
    · exact .of_heap_eq (h.of_heap_eq rfl).erase rfl
    · exact .setCommand (h.of_heap_eq rfl) hc rfl

theorem Reachable.declared (hs : Reachable P s) : Declared s := by
  induction hs with
  | init => intro _ _ _ h; cases h
  | step hr hv h ih => exact ih.step hr.linked hv h

end Declared

/-! ## Answering the held call -/

/-- **A Send naming an attached command answers the call held in its receive slot.** In every
run that rejects only the head of the list, a Send to a live shell that names the shell's
command, and whose data the inbound path decodes without undefined behaviour into some
`MI_Result` `r`, succeeds: it empties the receive slot, lets the end-of-stream loop mark the
first stream whose name differs, and posts `r` as the final result of the held call, if there
is one, and of its own call. -/
theorem heldCall_answered {s : State} {p : Addr} {d : ShellData} {c : CommandData}
    {req : SendRequest} {g : ℕ → UInt8} {r : MIResult} (hs : HeadReachable P s)
    (hp : s.heap p = some (.shell d)) (h0 : d.command ≠ 0)
    (hc : s.heap d.command = some (.command c)) (hid : req.commandId = some c.commandId)
    (hr : inboundResult P g d.isCompressed req = .ok r) (context : Ctx) :
    step P s (.invokeSend context d.shellId req g) =
      .ok (s.setCommand d.command { c with
          receiveContext := 0,
          outboundStreams := if req.endOfStream then markFirstOther req.streamName c.outboundStreams
            else c.outboundStreams },
        sendPosts context c.receiveContext c.commandId req r) := by
  obtain ⟨l, hl⟩ := hs.listed
  have hf := findShell_chain d.shellId hl.1 hs.reachable.allocated
  rw [hl.firstWithId_live hs.reachable.inv hp] at hf
  have hp0 := ((shellChain_iff_seg.mp hl.1).live ((hl.2 p).mpr ⟨d, hp⟩)).1
  have hloop := hs.reachable.declared.markStreamDone hp h0 hc req.streamName
  simp only [step, shellInvokeSend, hf, hp0, hid, State.shellAt_eq_ok.mpr ⟨hp0, hp⟩,
    State.commandAt_eq_ok.mpr ⟨h0, hc⟩, ok_bind, pure_eq_ok, if_false, ne_eq, not_true_eq_false]
  cases req.endOfStream <;> simp only [hloop, hr, ok_bind, pure_eq_ok, if_true, if_false,
    Bool.false_eq_true]

theorem headReachable_withCommand : HeadReachable P (withCommand P) :=
  .step headReachable_oneShell invokeCommand_oneShell_valid trivial invokeCommand_oneShell

/-- The Send ending `stdout` on the command at `0x200000000` answers the Invoke_Command call 2
parked in its receive slot; the loop marks no stream, `stdout` being the only one. -/
theorem heldCall_answered_endStdout :
    HeadReachable Platform.sample (withCommand Platform.sample) ∧
      step Platform.sample (withCommand Platform.sample)
          (.invokeSend 3 (Platform.sample.shellIdAt 16) (endStdout Platform.sample) fun _ => 0) =
        .ok ((withCommand Platform.sample).setCommand 0x200000000
            { newCommand Platform.sample 0x200000000 16 (shell16 Platform.sample) 2 with
              receiveContext := 0,
              outboundStreams := markFirstOther "stdout".toList [⟨"stdout".toList, false⟩] },
          sendPosts 3 2 (Platform.sample.commandIdAt 0x200000000) (endStdout Platform.sample) .ok) :=
  ⟨headReachable_withCommand,
    heldCall_answered (p := 16) (d := { shell16 Platform.sample with command := 0x200000000 })
      (c := newCommand Platform.sample 0x200000000 16 (shell16 Platform.sample) 2)
      headReachable_withCommand rfl (by decide) rfl (by rfl) (by rfl) 3⟩

end ShellProvider

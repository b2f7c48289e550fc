import ShellProvider.Replies

/-!
# Shells and their commands

A shell holds at most one command, in `command`, and the command points back at its shell
through `shellData`. `Linked s` says the two pointers agree: every live shell's `command` is
`NULL` or a live command whose `shellData` is that shell.

* Creating a shell starts it with no command; `Shell_Invoke_Command` allocates the command at
  an address not in use and stores it in both directions (`Linked.attach`).
* `Shell_Invoke_Signal`, and the `error:` label of `Shell_Invoke_Command`, free the command and
  clear the shell's pointer together (`Linked.detach`): the back pointer shows that no other
  shell still points at the freed command.
* Every other write keeps each shell's pointer and each command's back pointer
  (`Linked.of_shells`).

So in every reachable state a shell's `command` never dangles and no two shells share a
command (`shellCommand_owned`). What a handler can still get wrong is the `NULL` case, which
`Shell_Invoke_Send`, `Shell_Invoke_Receive` and `Shell_Invoke_Signal` do not check.
-/

namespace ShellProvider

variable {P : Platform}

/-- Every live shell's `command` is `NULL` or a live command whose `shellData` is that shell. -/
def Linked (s : State) : Prop :=
  ∀ p d, s.heap p = some (.shell d) →
    d.command = 0 ∨ ∃ c, s.heap d.command = some (.command c) ∧ c.shellData = p

section Linked

variable {s s' : State} {p a : Addr} {d : ShellData} {c : CommandData}

/-- A state that keeps every command, with its back pointer, and whose shells are old shells
with the same `command` or new ones with none, keeps the pointers agreeing. -/
theorem Linked.of_shells (h : Linked s)
    (hk : ∀ a c, s.heap a = some (.command c) →
      ∃ c', s'.heap a = some (.command c') ∧ c'.shellData = c.shellData)
    (hs : ∀ q e', s'.heap q = some (.shell e') →
      e'.command = 0 ∨ ∃ e, s.heap q = some (.shell e) ∧ e'.command = e.command) :
    Linked s' := by
  intro q e' he'
  obtain h0 | ⟨e, he, hc⟩ := hs q e' he'
  · exact .inl h0
  · rw [hc]
    obtain h0 | ⟨c, hcell, hback⟩ := h q e he
    · exact .inl h0
    · obtain ⟨c', hcell', hback'⟩ := hk _ c hcell
      exact .inr ⟨c', hcell', hback'.trans hback⟩

theorem Linked.of_heap_eq (h : Linked s) (hh : s'.heap = s.heap) : Linked s' := by
  intro q e he
  rw [hh] at he ⊢
  exact h q e he

theorem Linked.setShell {d' : ShellData} (h : Linked s) (hp : s.heap p = some (.shell d))
    (hc : d'.command = d.command) : Linked (s.setShell p d') := by
  refine h.of_shells (fun a c hac => ⟨c, ?_, rfl⟩) fun q e' he' => .inr ?_
  · have : a ≠ p := by rintro rfl; rw [hp] at hac; cases hac
    simpa [this] using hac
  · by_cases hq : q = p
    · subst hq; rw [State.setShell_heap, if_pos rfl] at he'; cases he'
      exact ⟨d, hp, hc⟩
    · simp only [State.setShell_heap, if_neg hq] at he'
      exact ⟨e', he', rfl⟩

theorem Linked.setCommand {c' : CommandData} (h : Linked s) (ha : s.heap a = some (.command c))
    (hc : c'.shellData = c.shellData) : Linked (s.setCommand a c') := by
  refine h.of_shells (fun b e hb => ?_) fun q e' he' => .inr ⟨e', ?_, rfl⟩
  · by_cases hba : b = a
    · subst hba; rw [ha] at hb; cases hb; exact ⟨c', by simp, hc⟩
    · exact ⟨e, by simpa [hba] using hb, rfl⟩
  · have : q ≠ a := by rintro rfl; simp at he'
    simpa [this] using he'

theorem Linked.eraseShell (h : Linked s) (hp : ∀ c, s.heap p ≠ some (.command c)) :
    Linked (s.erase p) := by
  refine h.of_shells (fun a c hac => ⟨c, ?_, rfl⟩) fun q e' he' => .inr ⟨e', ?_, rfl⟩
  · have : a ≠ p := by rintro rfl; exact hp c hac
    simpa [this] using hac
  · by_cases hq : q = p
    · simp [hq] at he'
    · simpa [hq] using he'

theorem Linked.allocShell (h : Linked s) (hfree : s.heap p = none) (hd : d.command = 0) :
    Linked (s.alloc p (.shell d)) := by
  refine h.of_shells (fun a c hac => ⟨c, ?_, rfl⟩) fun q e' he' => ?_
  · have : a ≠ p := by rintro rfl; rw [hfree] at hac; cases hac
    simpa [this] using hac
  · by_cases hq : q = p
    · subst hq; rw [State.alloc_heap, if_pos rfl] at he'; cases he'
      exact .inl hd
    · simp only [State.alloc_heap, if_neg hq] at he'
      exact .inr ⟨e', he', rfl⟩

/-- **Freeing a shell's command and clearing its pointer keeps the pointers agreeing.** The
command's back pointer names this shell, so no other shell pointed at it. -/
theorem Linked.detach (h : Linked s) (hp : s.heap p = some (.shell d)) (h0 : d.command ≠ 0)
    (hc : s.heap d.command = some (.command c)) :
    Linked ((s.erase d.command).setShell p { d with command := 0 }) := by
  have hback : c.shellData = p := by
    obtain h0' | ⟨c', hc', hb⟩ := h p d hp
    · exact absurd h0' h0
    · rw [hc] at hc'; cases hc'; exact hb
  intro q e' he'
  by_cases hq : q = p
  · subst hq; rw [State.setShell_heap, if_pos rfl] at he'; cases he'
    exact .inl rfl
  have hqd : q ≠ d.command := by rintro rfl; simp [hq] at he'
  simp only [State.setShell_heap, State.erase_heap, if_neg hq, if_neg hqd] at he'
  refine (h q e' he').imp_right fun ⟨c₁, hc₁, hb₁⟩ => ⟨c₁, ?_, hb₁⟩
  have hne : e'.command ≠ p := by rintro h'; rw [h', hp] at hc₁; cases hc₁
  have hnd : e'.command ≠ d.command := by
    rintro h'; rw [h', hc] at hc₁; cases hc₁; exact hq (hb₁.symm.trans hback)
  simpa [hne, hnd] using hc₁

/-- **Allocating a command for a shell and storing it in both directions keeps the pointers
agreeing.** -/
theorem Linked.attach {cmd : CommandData} (h : Linked s) (hp : s.heap p = some (.shell d))
    (hfree : s.heap a = none) (hb : cmd.shellData = p) :
    Linked ((s.alloc a (.command cmd)).setShell p { d with command := a }) := by
  have hap : a ≠ p := by rintro rfl; rw [hp] at hfree; cases hfree
  intro q e' he'
  by_cases hq : q = p
  · subst hq; rw [State.setShell_heap, if_pos rfl] at he'; cases he'
    exact .inr ⟨cmd, by simp [hap], hb⟩
  have hqa : q ≠ a := by rintro rfl; simp [hq] at he'
  simp only [State.setShell_heap, State.alloc_heap, if_neg hq, if_neg hqa] at he'
  refine (h q e' he').imp_right fun ⟨c₁, hc₁, hb₁⟩ => ⟨c₁, ?_, hb₁⟩
  have hne : e'.command ≠ p := by rintro h'; rw [h', hp] at hc₁; cases hc₁
  have hna : e'.command ≠ a := by rintro h'; rw [h', hfree] at hc₁; cases hc₁
  simpa [hne, hna] using hc₁

/-- **No event breaks the pointers between shells and commands.** -/
theorem Linked.step {e : Event} {posts : List Post} (h : Linked s) (hv : e.Valid P s)
    (hstep : step P s e = .ok (s', posts)) : Linked s' := by
  cases e with
  | createInstance =>
    obtain ⟨hh, -⟩ | ⟨_, _, -, hc, -, rfl, -⟩ := shellCreateInstance_eq_ok hstep
    · exact h.of_heap_eq hh
    · exact .of_heap_eq (h.allocShell (hv.createInstance_free hc) rfl) rfl
  | deleteInstance =>
    obtain ⟨rfl, -⟩ | ⟨previous, p, d, s₁, -, -, hd, hr, rfl, -⟩ := shellDeleteInstance_eq_ok hstep
    · exact h
    have hd := (State.shellAt_eq_ok.mp hd).2
    obtain ⟨-, rfl⟩ | ⟨dr, hdr, rfl⟩ := State.relink_eq_ok hr
    · exact .eraseShell (h.of_heap_eq rfl) fun c => by simp [hd]
    · refine .eraseShell (h.setShell (State.shellAt_eq_ok.mp hdr).2 rfl) fun c => ?_
      by_cases hp : p = previous <;> simp [hp, hd]
  | getInstance => exact shellGetInstance_eq_ok hstep ▸ h
  | enumerateInstances => exact shellEnumerateInstances_eq_ok hstep ▸ h
  | modifyInstance | invokeConnect => cases hstep; exact h
  | invokeCommand =>
    obtain ⟨p, d, hf, -, hd, ⟨c, hc0, hc, rfl, -⟩ | ⟨-, -, -, rfl, -⟩ | ⟨-, hc, -, rfl, -⟩⟩ :=
      shellInvokeCommand_eq_ok hstep
    · exact h.detach (State.shellAt_eq_ok.mp hd).2 hc0 (State.commandAt_eq_ok.mp hc).2
    · exact h.of_heap_eq rfl
    · exact .of_heap_eq (h.attach (State.shellAt_eq_ok.mp hd).2 (hv.invokeCommand_free hc hf hd) rfl)
        rfl
  | invokeSend =>
    obtain ⟨rfl, -⟩ | ⟨_, _, _, _, _, -, -, -, hc, -, -, -, rfl, -⟩ := shellInvokeSend_eq_ok hstep
    · exact h
    · exact h.setCommand (State.commandAt_eq_ok.mp hc).2 rfl
  | invokeReceive =>
    obtain ⟨rfl, -⟩ | ⟨_, _, _, -, -, -, hc, -, -, rfl, -⟩ := shellInvokeReceive_eq_ok hstep
    · exact h
    · exact h.setCommand (State.commandAt_eq_ok.mp hc).2 rfl
  | invokeSignal =>
    obtain ⟨_, _, _, -, -, hd, hc, rfl, -⟩ := shellInvokeSignal_eq_ok hstep
    have hc := State.commandAt_eq_ok.mp hc
    exact h.detach (State.shellAt_eq_ok.mp hd).2 hc.1 hc.2
  | reportContext =>
    obtain ⟨-, ⟨d, hd, -, -, ⟨-, rfl⟩ | ⟨-, rfl⟩⟩ | ⟨c, hc, -, rfl, -⟩⟩ :=
      wsmanPluginReportContext_eq_ok hstep
    · exact .setShell (h.of_heap_eq rfl) hd rfl
    · exact .of_heap_eq (.eraseShell (h.of_heap_eq rfl) fun c => by simp [hd]) rfl
    · exact .setCommand (h.of_heap_eq rfl) hc rfl

theorem Reachable.linked (hs : Reachable P s) : Linked s := by
  induction hs with
  | init => intro _ _ h; cases h
  | step _ hv h ih => exact ih.step hv h

/-- Two live shells never share a command: it points back at only one of them. -/
theorem Linked.command_injective {q : Addr} {e : ShellData} (hl : Linked s)
    (hp : s.heap p = some (.shell d)) (hq : s.heap q = some (.shell e)) (hc : d.command ≠ 0)
    (he : e.command = d.command) : q = p := by
  obtain ⟨c, hcell, hback⟩ := (hl p d hp).resolve_left hc
  obtain ⟨c', hcell', hback'⟩ := (hl q e hq).resolve_left (he ▸ hc)
  rw [he, hcell] at hcell'
  cases hcell'
  exact hback'.symm.trans hback

/-- **In every reachable state a shell's command is the one live command that points back at
it.** A shell's non-`NULL` `command` is a live command whose `shellData` is the shell, and no
other shell points at that command. -/
theorem shellCommand_owned (hs : Reachable P s) (hp : s.heap p = some (.shell d))
    (hc : d.command ≠ 0) :
    (∃ c, s.heap d.command = some (.command c) ∧ c.shellData = p) ∧
      ∀ q e, s.heap q = some (.shell e) → e.command = d.command → q = p := by
  have hl := hs.linked
  exact ⟨(hl p d hp).resolve_left hc, fun q e hq he => hl.command_injective hp hq hc he⟩

end Linked

theorem reachable_withCommand : Reachable P (withCommand P) :=
  .step reachable_oneShell invokeCommand_oneShell_valid invokeCommand_oneShell

theorem shellCommand_owned_withCommand :
    (∃ c, (withCommand Platform.sample).heap 0x200000000 = some (.command c) ∧ c.shellData = 16) ∧
      ∀ q e, (withCommand Platform.sample).heap q = some (.shell e) → e.command = 0x200000000 →
        q = 16 :=
  shellCommand_owned (d := { shell16 Platform.sample with command := 0x200000000 })
    reachable_withCommand rfl (by decide)

end ShellProvider

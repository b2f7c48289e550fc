import ShellProvider.Calls

/-!
# Calls that are never answered

The reply protocol of `Calls.lean` answers each call at most once; this file shows two ways in
which `Shell.c` leaves a call waiting for ever.

* `Lost`: a waiting call that no slot holds. No later event answers it (`Lost.run`).
  `Shell_Invoke_Command` on a shell that already has a command, and `Shell_Invoke_Signal` naming
  another command, free the command on their `error:` path and lose the call parked in it
  (`freedCommand_call_lost`).
* `Orphan`: a live command no live shell points at. `Shell_DeleteInstance` frees a shell and
  not its command, which it leaves an orphan (`shellDeleteInstance_leaks_command`); no later
  event frees an orphan, and the call it holds is never answered (`orphan_call_waits`).
-/

namespace ShellProvider

variable {P : Platform}

/-! ## Lost calls -/

/-- A call still waiting that no slot holds any more. -/
def Lost (s : State) (O : List Ctx) (x : Ctx) : Prop :=
  x ≠ 0 ∧ x ∈ O ∧ ∀ a, s.heldAt a ≠ x

section Lost

variable {s s' : State} {O : List Ctx} {x : Ctx} {own : Option Ctx} {R : List Ctx}

/-- No event answers a lost call, or parks it again. -/
theorem Lost.handoff (hl : Lost s O x) (hf : ∀ c, own = some c → c ∉ O)
    (hh : Handoff s s' own R) : Lost s' ((own.toList ++ O).filter (· ∉ R)) x := by
  obtain ⟨hx0, hxO, hnh⟩ := hl
  have hown : x ∉ own.toList := fun hm => hf x (Option.mem_toList.mp hm) hxO
  have hR : x ∉ R := fun hm =>
    (hh.mem hm).elim hown fun ⟨k, hk, _⟩ => hnh k hk
  refine ⟨hx0, List.mem_filter.mpr ⟨List.mem_append_right _ hxO, decide_eq_true hR⟩,
    fun a ha => ?_⟩
  cases hh with
  | keep hs _ => exact hnh a (hs ▸ ha)
  | @park k c hc _ hs _ =>
    rw [hs] at ha
    by_cases hak : a = k
    · rw [hak, Function.update_same] at ha
      exact hf c hc (ha ▸ hxO)
    · rw [Function.update_noteq hak] at ha
      exact hnh a ha
  | @release k hs _ =>
    rw [hs] at ha
    by_cases hak : a = k
    · rw [hak, Function.update_same] at ha
      exact hx0 ha.symm
    · rw [Function.update_noteq hak] at ha
      exact hnh a ha

/-- A lost call stays lost along every continuation of a history. -/
theorem Lost.run (hl : Lost s O x) (hs : Served P s O) {y : State × List Ctx}
    (hrun : Relation.ReflTransGen (Serve P) (s, O) y) : Lost y.1 y.2 x := by
  induction hrun with
  | refl => exact hl
  | @tail y z hyz hstep ih =>
    cases hstep with
    | step hv hf hst =>
      exact ih.handoff (fun c hc => (hf c hc).2)
        (step_handoff (Served.waiting (hs.trans hyz)).1.inv hv hst)

end Lost

/-- What `Shell_Invoke_Command` on a shell that has a command, and `Shell_Invoke_Signal` naming
another command, do: free the shell's command and answer their own call only. -/
theorem freeCommand_eq {s s₁ : State} {e : Event} {posts : List Post} {context : Ctx}
    {p : Addr} {d : ShellData} {c : CommandData} (hi : Inv P s)
    (hp : s.heap p = some (.shell d)) (h0 : d.command ≠ 0)
    (hk : s.heap d.command = some (.command c))
    (he : (∃ calloc clone, e = .invokeCommand context d.shellId calloc clone) ∨
      ∃ cid rp sp, cid ≠ c.commandId ∧ e = .invokeSignal context d.shellId (some cid) rp sp)
    (h : step P s e = .ok (s₁, posts)) :
    s₁ = (s.erase d.command).setShell p { d with command := 0 } ∧ e.call = some context ∧
      ∃ r, posts = [.result context r] := by
  -- the shell the handler finds is the one at `p`
  have hfound : ∀ {q d'}, findShell s d.shellId = .ok q → q ≠ 0 → s.shellAt q = .ok d' →
      q = p ∧ d' = d := fun hq hq0 hd' => by
    obtain ⟨d'', hq', hid⟩ := findShell_found hq hq0
    obtain rfl := hi.eq_of_shellId hp hq' hid
    have hd'' := (State.shellAt_eq_ok.mp hd').2
    rw [hp] at hd''
    cases hd''
    exact ⟨rfl, rfl⟩
  rcases he with ⟨calloc, clone, rfl⟩ | ⟨cid, rp, sp, hcid, rfl⟩
  · obtain ⟨q, d', hq, hq0, hd', hcase⟩ := shellInvokeCommand_eq_ok h
    obtain ⟨rfl, rfl⟩ := hfound hq hq0 hd'
    obtain ⟨_, -, -, rfl, rfl⟩ | ⟨hc0, -⟩ | ⟨hc0, -⟩ := hcase
    · exact ⟨rfl, rfl, _, rfl⟩
    all_goals exact absurd hc0 h0
  · have h : shellInvokeSignal s context d.shellId (some cid) rp sp = .ok (s₁, posts) := h
    obtain ⟨q, d', c', hq, hq0, hd', hc', rfl, hcase⟩ := shellInvokeSignal_eq_ok h
    obtain ⟨rfl, rfl⟩ := hfound hq hq0 hd'
    rw [(State.commandAt_eq_ok.mp hc').2] at hk
    cases hk
    obtain ⟨_, -, -, rfl⟩ | ⟨hm, -⟩ := hcase
    · exact ⟨rfl, rfl, _, rfl⟩
    · exact absurd (hm cid rfl) hcid

/-- Freeing a shell's command and answering only the event's own call loses the call parked
in the command. -/
theorem Lost.of_detach {s : State} {O : List Ctx} {e : Event} {context : Ctx} {r : MIResult}
    {p : Addr} {d : ShellData} {c : CommandData} (hw : Waiting s O)
    (hf : context ≠ 0 ∧ context ∉ O) (hcall : e.call = some context)
    (hp : s.heap p = some (.shell d)) (hk : s.heap d.command = some (.command c))
    (hx : c.receiveContext ≠ 0) :
    Lost ((s.erase d.command).setShell p { d with command := 0 })
      ((e.call.toList ++ O).filter (· ∉ completes [.result context r])) c.receiveContext := by
  have hheld : s.heldAt d.command = c.receiveContext := State.heldAt_command hk
  have hxO : c.receiveContext ∈ O := hheld ▸ hw.mem _ (hheld ▸ hx)
  have hne : c.receiveContext ≠ context := fun h' => hf.2 (h' ▸ hxO)
  rw [hcall, completes_result, if_neg hf.1, completes_nil]
  refine ⟨hx, List.mem_filter.mpr ⟨List.mem_cons_of_mem _ hxO, by simpa using hne⟩,
    fun a ha => ?_⟩
  rw [State.heldAt_detach hp hk] at ha
  by_cases hak : a = d.command
  · rw [hak, Function.update_same] at ha
    exact hx ha.symm
  · rw [Function.update_noteq hak] at ha
    exact hak (hw.unique _ _ (hheld ▸ hx) (ha.trans hheld.symm))

/-- **A call parked in a command that an error exit frees is never answered.**
`Shell_Invoke_Command` on a shell that already has a command answers
`MI_RESULT_ALREADY_EXISTS`, and `Shell_Invoke_Signal` naming another command answers
`MI_RESULT_NOT_FOUND`; both free the shell's command on their `error:` path without answering the
call parked in its receive slot. In every history that call then stays waiting in every later
state, held by no slot: no later event answers it. -/
theorem freedCommand_call_lost {s s₁ s' : State} {O O' : List Ctx} {e : Event}
    {posts : List Post} {context : Ctx} {p : Addr} {d : ShellData} {c : CommandData}
    (hs : Served P s O) (hv : e.Valid P s) (hf : context ≠ 0 ∧ context ∉ O)
    (hp : s.heap p = some (.shell d)) (h0 : d.command ≠ 0)
    (hk : s.heap d.command = some (.command c)) (hx : c.receiveContext ≠ 0)
    (he : (∃ calloc clone, e = .invokeCommand context d.shellId calloc clone) ∨
      ∃ cid rp sp, cid ≠ c.commandId ∧ e = .invokeSignal context d.shellId (some cid) rp sp)
    (h : step P s e = .ok (s₁, posts))
    (hrun : Relation.ReflTransGen (Serve P)
      (s₁, (e.call.toList ++ O).filter (· ∉ completes posts)) (s', O')) :
    c.receiveContext ∈ O' ∧ ∀ a, s'.heldAt a ≠ c.receiveContext := by
  obtain ⟨hr, hw⟩ := hs.waiting
  obtain ⟨rfl, hcall, r, rfl⟩ := freeCommand_eq hr.inv hp h0 hk he h
  have hfresh : ∀ x, e.call = some x → x ≠ 0 ∧ x ∉ O := fun x hx' => by
    rw [hcall] at hx'
    cases hx'
    exact hf
  have hl := (Lost.of_detach hw hf hcall hp hk hx).run (hs.serve hv hfresh h) hrun
  exact ⟨hl.2.1, hl.2.2⟩

/-- `withCommand` after a Signal naming another command: the command at `0x200000000` freed. -/
theorem step_signalOther_withCommand :
    step Platform.sample (withCommand Platform.sample)
        (.invokeSignal 3 (Platform.sample.shellIdAt 16) (some []) .ok .ok) =
      .ok (((withCommand Platform.sample).erase 0x200000000).setShell 16
        { shell16 Platform.sample with command := 0 }, [.result 3 .notFound]) := by
  have hf : findShell (withCommand Platform.sample) (Platform.sample.shellIdAt 16) = .ok 16 :=
    findShell_head (d := { shell16 Platform.sample with command := 0x200000000 }) rfl (by decide) rfl
  simp only [step, shellInvokeSignal, hf]
  rfl

/-- On `withCommand`, a Signal naming another command loses the Invoke_Command call 2 parked in
the command at `0x200000000`. -/
theorem freedCommand_call_lost_signal :
    (2 : Ctx) ∈ (([3] : List Ctx) ++ [2, 1]).filter (· ∉ completes [.result 3 .notFound]) ∧
      ∀ a, (((withCommand Platform.sample).erase 0x200000000).setShell 16
        { shell16 Platform.sample with command := 0 }).heldAt a ≠ 2 :=
  freedCommand_call_lost (p := 16) (d := { shell16 Platform.sample with command := 0x200000000 })
    (c := newCommand Platform.sample 0x200000000 16 (shell16 Platform.sample) 2)
    served_withCommand (by trivial) (by decide) rfl (by decide) rfl (by decide)
    (.inr ⟨[], .ok, .ok, by decide, rfl⟩) step_signalOther_withCommand .refl

/-! ## Orphaned commands -/

/-- A live command at `a` that no live shell points at, such as the command of a shell
`Shell_DeleteInstance` freed. -/
def Orphan (s : State) (a : Addr) : Prop :=
  a ≠ 0 ∧ (∃ c, s.heap a = some (.command c)) ∧ ∀ p d, s.heap p = some (.shell d) → d.command ≠ a

section Orphan

variable {s s' : State} {a p : Addr}

theorem Orphan.of_heap_eq (ho : Orphan s a) (hh : s'.heap = s.heap) :
    Orphan s' a ∧ s'.heldAt a = s.heldAt a :=
  ⟨by simpa only [Orphan, hh] using ho, congrFun (State.heldAt_of_heap_eq hh) a⟩

theorem Orphan.setShell {d n : ShellData} (ho : Orphan s a) (hp : s.heap p = some (.shell d))
    (hn : n.command ≠ a) :
    Orphan (s.setShell p n) a ∧ (s.setShell p n).heldAt a = s.heldAt a := by
  obtain ⟨ha0, ⟨c, hca⟩, hno⟩ := ho
  have hap : a ≠ p := by rintro rfl; rw [hp] at hca; cases hca
  refine ⟨⟨ha0, ⟨c, by simp [hap, hca]⟩, fun q e hq => ?_⟩, by simp [hap]⟩
  by_cases hqp : q = p
  · subst hqp
    simp only [State.setShell_heap, if_true, Option.some.injEq, Cell.shell.injEq] at hq
    exact hq ▸ hn
  · simp only [State.setShell_heap, hqp, if_false] at hq
    exact hno q e hq

theorem Orphan.erase (ho : Orphan s a) (hp : p ≠ a) :
    Orphan (s.erase p) a ∧ (s.erase p).heldAt a = s.heldAt a := by
  obtain ⟨ha0, ⟨c, hca⟩, hno⟩ := ho
  have hap : a ≠ p := Ne.symm hp
  refine ⟨⟨ha0, ⟨c, by simp [hap, hca]⟩, fun q e hq => ?_⟩, by simp [hap]⟩
  by_cases hqp : q = p
  · simp [hqp] at hq
  · simp only [State.erase_heap, hqp, if_false] at hq
    exact hno q e hq

theorem Orphan.setCommand {c n : CommandData} {k : Addr} (ho : Orphan s a)
    (hk : s.heap k = some (.command c)) (hn : k ≠ a ∨ n.receiveContext = c.receiveContext) :
    Orphan (s.setCommand k n) a ∧ (s.setCommand k n).heldAt a = s.heldAt a := by
  obtain ⟨ha0, ⟨c₀, hca⟩, hno⟩ := ho
  refine ⟨⟨ha0, ?_, fun q e hq => ?_⟩, ?_⟩
  · by_cases hak : a = k
    · exact ⟨n, by simp [hak]⟩
    · exact ⟨c₀, by simp [hak, hca]⟩
  · by_cases hqk : q = k
    · simp [hqk] at hq
    · simp only [State.setCommand_heap, hqk, if_false] at hq
      exact hno q e hq
  · by_cases hak : a = k
    · subst hak
      rw [State.heldAt_setCommand, Function.update_same, State.heldAt_command hk]
      exact hn.resolve_left (absurd rfl)
    · simp [hak]

theorem Orphan.alloc {x : Cell} (ho : Orphan s a) (hfree : s.heap p = none)
    (hx : ∀ d, x = .shell d → d.command ≠ a) :
    Orphan (s.alloc p x) a ∧ (s.alloc p x).heldAt a = s.heldAt a := by
  obtain ⟨ha0, ⟨c, hca⟩, hno⟩ := ho
  have hap : a ≠ p := by rintro rfl; rw [hfree] at hca; cases hca
  refine ⟨⟨ha0, ⟨c, by simp [hap, hca]⟩, fun q e hq => ?_⟩, ?_⟩
  · by_cases hqp : q = p
    · subst hqp
      simp only [State.alloc_heap, if_true, Option.some.injEq] at hq
      exact hx e hq
    · simp only [State.alloc_heap, hqp, if_false] at hq
      exact hno q e hq
  · simp only [State.heldAt, State.alloc_heap, if_neg hap]

/-- A shell found at `p` in place of its command, which `Shell_Invoke_Command` and
`Shell_Invoke_Signal` free, keeps an orphan other than that command. -/
theorem Orphan.detach {d : ShellData} {c : CommandData} (ho : Orphan s a)
    (hp : s.heap p = some (.shell d)) (hk : s.heap d.command = some (.command c)) :
    Orphan ((s.erase d.command).setShell p { d with command := 0 }) a ∧
      ((s.erase d.command).setShell p { d with command := 0 }).heldAt a = s.heldAt a := by
  have hpk : p ≠ d.command := by rintro h; rw [h, hk] at hp; cases hp
  obtain ⟨h₁, e₁⟩ := ho.erase (ho.2.2 p d hp)
  obtain ⟨h₂, e₂⟩ := h₁.setShell (p := p) (d := d) (n := { d with command := 0 })
    (by simp [hpk, hp]) (Ne.symm ho.1)
  exact ⟨h₂, e₂.trans e₁⟩

/-- **No event frees an orphaned command or touches the call it holds.** -/
theorem Orphan.step {e : Event} {posts : List Post} (ho : Orphan s a) (hv : e.Valid P s)
    (h : step P s e = .ok (s', posts)) : Orphan s' a ∧ s'.heldAt a = s.heldAt a := by
  -- no live shell's command is `a`, and no shell lives at `a`
  have hno := ho.2.2
  have hsa : ∀ {q d}, s.heap q = some (.shell d) → q ≠ a := fun hq hqa => by
    obtain ⟨c, hc⟩ := ho.2.1
    rw [← hqa, hq] at hc
    cases hc
  cases e with
  | createInstance =>
    obtain ⟨hh, -⟩ | ⟨_, _, -, hc, -, rfl, -⟩ := shellCreateInstance_eq_ok h
    · exact ho.of_heap_eq hh
    · exact ho.alloc (hv.createInstance_free hc) fun d hd => by cases hd; exact Ne.symm ho.1
  | deleteInstance =>
    obtain ⟨rfl, -⟩ | ⟨previous, p, d, s₁, -, -, hd, hr, rfl, -⟩ := shellDeleteInstance_eq_ok h
    · exact ⟨ho, rfl⟩
    have h₁ : Orphan s₁ a ∧ s₁.heldAt a = s.heldAt a := by
      obtain ⟨-, rfl⟩ | ⟨dr, hdr, rfl⟩ := State.relink_eq_ok hr
      · exact ⟨ho, rfl⟩
      · have hdr := (State.shellAt_eq_ok.mp hdr).2
        exact ho.setShell hdr (hno _ dr hdr)
    obtain ⟨h₂, e₂⟩ := h₁.1.erase (hsa (State.shellAt_eq_ok.mp hd).2)
    exact ⟨h₂, e₂.trans h₁.2⟩
  | getInstance => obtain rfl := shellGetInstance_eq_ok h; exact ⟨ho, rfl⟩
  | enumerateInstances => obtain rfl := shellEnumerateInstances_eq_ok h; exact ⟨ho, rfl⟩
  | modifyInstance | invokeConnect => cases h; exact ⟨ho, rfl⟩
  | invokeCommand context name calloc clone =>
    obtain ⟨p, d, hf, -, hd, hcase⟩ := shellInvokeCommand_eq_ok h
    have hp := (State.shellAt_eq_ok.mp hd).2
    obtain ⟨c, -, hc, rfl, -⟩ | ⟨-, -, -, rfl, -⟩ | ⟨-, h0, -, rfl, -⟩ := hcase
    · exact ho.detach hp (State.commandAt_eq_ok.mp hc).2
    · exact ho.of_heap_eq State.allocFree_heap
    · have hfree := hv.invokeCommand_free h0 hf hd
      have hpc : p ≠ calloc := fun h' => by rw [h', hfree] at hp; cases hp
      obtain ⟨h₁, e₁⟩ := ho.alloc (x := .command (newCommand P calloc p d context)) hfree
        fun _ h' => by cases h'
      have hca : calloc ≠ a := by
        rintro rfl
        obtain ⟨c, hc⟩ := ho.2.1
        rw [hfree] at hc
        cases hc
      obtain ⟨h₂, e₂⟩ := h₁.setShell (p := p) (d := d) (n := { d with command := calloc })
        (by simp [hpc, hp]) hca
      exact ⟨h₂, e₂.trans e₁⟩
  | invokeSend =>
    obtain ⟨rfl, -⟩ | ⟨p, d, c, _, _, -, -, hd, hc, -, -, -, rfl, -⟩ := shellInvokeSend_eq_ok h
    · exact ⟨ho, rfl⟩
    · exact ho.setCommand (State.commandAt_eq_ok.mp hc).2
        (.inl (hno p d (State.shellAt_eq_ok.mp hd).2))
  | invokeReceive =>
    obtain ⟨rfl, -⟩ | ⟨p, d, c, -, -, hd, hc, -, -, rfl, -⟩ := shellInvokeReceive_eq_ok h
    · exact ⟨ho, rfl⟩
    · exact ho.setCommand (State.commandAt_eq_ok.mp hc).2
        (.inl (hno p d (State.shellAt_eq_ok.mp hd).2))
  | invokeSignal =>
    obtain ⟨p, d, c, -, -, hd, hc, rfl, -⟩ := shellInvokeSignal_eq_ok h
    exact ho.detach (State.shellAt_eq_ok.mp hd).2 (State.commandAt_eq_ok.mp hc).2
  | reportContext =>
    obtain ⟨-, ⟨d, hd, -, -, ⟨-, rfl⟩ | ⟨-, rfl⟩⟩ | ⟨c, hc, -, rfl, -⟩⟩ :=
      wsmanPluginReportContext_eq_ok h
    · exact Orphan.setShell (s := { s with requests := _ }) ho hd (hno _ d hd)
    · exact Orphan.erase (s := { s with requests := _ }) ho (hsa hd)
    · exact Orphan.setCommand (s := { s with requests := _ }) ho hc (.inr rfl)

/-- Unlinking rewrites at most the `nextShell` of one shell. -/
theorem State.relink_heap {previous next r : Addr} (h : s.relink previous next = .ok s') :
    s'.heap r = s.heap r ∨ ∃ d, s.heap r = some (.shell d) ∧
      s'.heap r = some (.shell { d with nextShell := next }) := by
  obtain ⟨-, rfl⟩ | ⟨d, hd, rfl⟩ := State.relink_eq_ok h
  · exact .inl rfl
  · by_cases hr : r = previous
    · subst hr
      exact .inr ⟨d, (State.shellAt_eq_ok.mp hd).2, by simp⟩
    · exact .inl (by simp [hr])

/-- `Shell_DeleteInstance` frees the shell it finds and never its command: when shells and
commands point at each other, the command of the freed shell is left an orphan. -/
theorem Orphan.of_shellDeleteInstance {context : Ctx} {name : List Char} {posts : List Post}
    {d : ShellData} (hl : Linked s) (h : shellDeleteInstance s context name = .ok (s', posts))
    (hp : s.heap p = some (.shell d)) (hfreed : s'.heap p = none) (hk : d.command ≠ 0) :
    Orphan s' d.command ∧ s'.heap d.command = s.heap d.command := by
  obtain ⟨rfl, -⟩ | ⟨previous, q, dq, s₁, -, -, -, hr, rfl, -⟩ := shellDeleteInstance_eq_ok h
  · rw [hp] at hfreed
    cases hfreed
  obtain ⟨c, hc, -⟩ := (hl p d hp).resolve_left hk
  -- the freed shell is the one at `p`: unlinking frees nothing
  obtain rfl : p = q := by
    by_contra hpq
    rw [State.erase_heap, if_neg hpq] at hfreed
    rcases State.relink_heap (r := p) hr with h₁ | ⟨_, -, h₁⟩ <;> simp [h₁, hp] at hfreed
  have hkeep : (s₁.erase p).heap d.command = s.heap d.command := by
    have hkp : d.command ≠ p := fun h' => by rw [h', hp] at hc; cases hc
    rw [State.erase_heap, if_neg hkp]
    rcases State.relink_heap (r := d.command) hr with h₁ | ⟨_, h₂, -⟩
    · exact h₁
    · rw [hc] at h₂
      cases h₂
  refine ⟨⟨hk, ⟨c, hkeep.trans hc⟩, fun r e he hre => ?_⟩, hkeep⟩
  · have hrp : r ≠ p := fun h' => by simp [h'] at he
    rw [State.erase_heap, if_neg hrp] at he
    rcases State.relink_heap (r := r) hr with h₁ | ⟨e₀, h₀, h₁⟩
    · exact hrp (hl.command_injective hp (h₁ ▸ he) hk hre)
    · rw [h₁] at he
      cases he
      exact hrp (hl.command_injective hp h₀ hk hre)

/-- Along every continuation of a history an orphaned command stays, with the call it holds,
and that call stays waiting. -/
theorem Orphan.run (ho : Orphan s a) {O : List Ctx} (hs : Served P s O)
    {x : State × List Ctx} (hrun : Relation.ReflTransGen (Serve P) (s, O) x) :
    Orphan x.1 a ∧ x.1.heldAt a = s.heldAt a ∧ (s.heldAt a ≠ 0 → s.heldAt a ∈ x.2) := by
  induction hrun with
  | refl => exact ⟨ho, rfl, hs.waiting.2.mem a⟩
  | @tail y z hyz hstep ih =>
    obtain ⟨ho₁, hh₁, hm₁⟩ := ih
    cases hstep with
    | @step s₁ s₂ O₁ e posts hv hf hst =>
      obtain ⟨hr, hw⟩ := Served.waiting (hs.trans hyz)
      obtain ⟨ho₂, hh₂⟩ := ho₁.step hv hst
      refine ⟨ho₂, hh₂.trans hh₁, fun h0 => ?_⟩
      have hm := hm₁ h0
      rw [← hh₁] at h0 hm ⊢
      have hnot := (step_handoff hr.inv hv hst).not_mem hw (fun c hc => (hf c hc).2) h0 hh₂
      exact List.mem_filter.mpr ⟨List.mem_append_right _ hm, decide_eq_true hnot⟩

end Orphan

/-! ## Deleting a shell with a command -/

/-- `withCommand` after `Shell_DeleteInstance` of its shell, with context 3. -/
def commandOrphaned (P : Platform) : State := { withCommand P with shellList := 0 }.erase 16

theorem step_deleteInstance_withCommand :
    step P (withCommand P) (.deleteInstance 3 (P.shellIdAt 16)) =
      .ok (commandOrphaned P, [.result 3 .ok]) :=
  shellDeleteInstance_head (s := withCommand P) (p := 16)
    (d := { shell16 P with command := 0x200000000 })
    rfl (by decide) rfl

theorem served_commandOrphaned : Served P (commandOrphaned P) [2, 1] :=
  served_withCommand.serve (by trivial) (fun c h => by cases h; decide) step_deleteInstance_withCommand

theorem orphan_commandOrphaned : Orphan (commandOrphaned P) 0x200000000 :=
  (Orphan.of_shellDeleteInstance (p := 16) (d := { shell16 P with command := 0x200000000 })
    reachable_withCommand.linked step_deleteInstance_withCommand rfl rfl
    (show (0x200000000 : Addr) ≠ 0 by decide)).1

/-- **`Shell_DeleteInstance` leaks the command of the shell it deletes.** In every reachable
state, a delete that frees a shell whose `command` is set leaves that command allocated and
unchanged, with the call it holds, and no live shell points at it any more. -/
theorem shellDeleteInstance_leaks_command {s s' : State} {context : Ctx} {name : List Char}
    {posts : List Post} {p : Addr} {d : ShellData} (hr : Reachable P s)
    (h : shellDeleteInstance s context name = .ok (s', posts))
    (hp : s.heap p = some (.shell d)) (hfreed : s'.heap p = none) (hk : d.command ≠ 0) :
    Orphan s' d.command ∧ s'.heap d.command = s.heap d.command :=
  Orphan.of_shellDeleteInstance hr.linked h hp hfreed hk

theorem shellDeleteInstance_leaks_command_withCommand :
    Orphan (commandOrphaned Platform.sample) 0x200000000 ∧
      (commandOrphaned Platform.sample).heap 0x200000000 =
        (withCommand Platform.sample).heap 0x200000000 :=
  shellDeleteInstance_leaks_command (p := 16)
    (d := { shell16 Platform.sample with command := 0x200000000 })
    reachable_withCommand step_deleteInstance_withCommand rfl rfl (by decide)

/-- **A deleted shell's command is leaked, and the call it holds is never answered.** In every
history, once no live shell points at a live command, as when `Shell_DeleteInstance` frees a
shell whose command is still attached, that command stays allocated in every later state,
holding the same call, and the call stays waiting: no later event completes it. -/
theorem orphan_call_waits {s s' : State} {O O' : List Ctx} {a : Addr} (hs : Served P s O)
    (ho : Orphan s a) (hrun : Relation.ReflTransGen (Serve P) (s, O) (s', O')) :
    Orphan s' a ∧ s'.heldAt a = s.heldAt a ∧ (s.heldAt a ≠ 0 → s.heldAt a ∈ O') :=
  ho.run hs hrun

/-- `commandOrphaned` after the backend reported on the command's request with handle 7. -/
def reportedOrphan (P : Platform) : State :=
  { commandOrphaned P with requests := [16] }.setCommand 0x200000000
    { newCommand P 0x200000000 16 (shell16 P) 2 with pluginCommandContext := 7 }

/-- The report on the orphaned command stores the handle and posts the command's instance and
`MI_RESULT_OK` to its `NULL` `commandContext`. -/
theorem step_reportOrphan :
    step Platform.sample (commandOrphaned Platform.sample) (.reportContext 0x200000000 7 .ok) =
      .ok (reportedOrphan Platform.sample,
        [.inst 0 (.command (Platform.sample.commandIdAt 0x200000000)), .result 0 .ok]) :=
  rfl

/-- After the delete the backend reports on the orphaned command, the event that should answer
the Invoke_Command call 2: the report changes the command and posts to `NULL`, and call 2,
parked in the command at `0x200000000`, still waits. -/
theorem orphan_call_waits_commandOrphaned :
    Orphan (reportedOrphan Platform.sample) 0x200000000 ∧
      (reportedOrphan Platform.sample).heldAt 0x200000000 =
        (commandOrphaned Platform.sample).heldAt 0x200000000 ∧
      ((commandOrphaned Platform.sample).heldAt 0x200000000 ≠ 0 →
        (commandOrphaned Platform.sample).heldAt 0x200000000 ∈ [2, 1]) :=
  orphan_call_waits served_commandOrphaned orphan_commandOrphaned
    (.single (.step (by show (0x200000000 : Addr) ∈ [0x200000000, 16]; decide)
      (fun c h => by cases h) step_reportOrphan))

end ShellProvider

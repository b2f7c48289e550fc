import ShellProvider.Commands
import ShellProvider.Safety

/-!
# Calls and their final results

Every entry point of the provider is a call from the MI layer with its own `MI_Context`, and
the call ends with one `MI_Context_PostResult` on that context: its final result. A call the
provider does not answer at once waits, and the MI layer hands no other call its context while
it does. `Shell.c` keeps such a call in a command's `receiveContext`, the one slot it has for a
later answer (`State.heldAt`): `Shell_Invoke_Receive` parks its call there, and so does
`Shell_Invoke_Command` (its own call, in the Receive slot); `Shell_Invoke_Send` and
`Shell_Invoke_Signal` take the call out of the slot as they answer it.

* `Handoff`: what one event can do to the slots, and which calls its final results complete;
  every event is one of these (`step_handoff`).
* `Waiting`: every held call is waiting, each in one slot; every history keeps it
  (`Served.waiting`).
* `completes_waiting`: in every history, the final results of an event complete distinct calls,
  each one waiting or the event's own: no call is answered twice, and no call that was not made.
* `run_answers_once`: over a whole run whose calls come with distinct contexts, no context gets
  two final results, and none gets one before its call is made.
-/

namespace ShellProvider

variable {P : Platform}

/-! ## Calls and completions -/

/-- The calls a list of posts completes: the context of each `MI_Context_PostResult` on a
non-`NULL` context, in order. -/
def completes : List Post → List Ctx
  | [] => []
  | .inst _ _ :: posts => completes posts
  | .result context _ :: posts =>
    if context = 0 then completes posts else context :: completes posts

@[simp] theorem completes_nil : completes [] = [] := rfl

@[simp] theorem completes_inst (context : Ctx) (i : Instance) (posts : List Post) :
    completes (.inst context i :: posts) = completes posts := rfl

@[simp] theorem completes_result (context : Ctx) (r : MIResult) (posts : List Post) :
    completes (.result context r :: posts) =
      if context = 0 then completes posts else context :: completes posts := rfl

@[simp] theorem completes_append (posts posts' : List Post) :
    completes (posts ++ posts') = completes posts ++ completes posts' := by
  induction posts with
  | nil => rfl
  | cons post posts ih =>
    cases post with
    | inst => exact ih
    | result context r => by_cases h : context = 0 <;> simp [h, ih]

/-- One final result completes at most its own call. -/
theorem completes_single (context : Ctx) (r : MIResult) :
    (completes [.result context r]).Sublist [context] := by
  by_cases h : context = 0 <;> simp [h]

/-- The call an event is: the `MI_Context` of an entry point; a backend callback is none. -/
def Event.call : Event → Option Ctx
  | .createInstance context .. | .deleteInstance context _ | .getInstance context _
  | .enumerateInstances context _ | .modifyInstance context | .invokeCommand context ..
  | .invokeSend context .. | .invokeReceive context .. | .invokeSignal context ..
  | .invokeConnect context => some context
  | .reportContext .. => none

/-! ## The slots that hold calls -/

/-- The call the cell at `a` holds for a later answer: a command's `receiveContext`; `NULL`
for any other cell. -/
def State.heldAt (s : State) (a : Addr) : Ctx :=
  match s.heap a with
  | some (.command c) => c.receiveContext
  | _ => 0

namespace State

variable {s s' : State} {a p : Addr}

theorem heldAt_command {c : CommandData} (h : s.heap a = some (.command c)) :
    s.heldAt a = c.receiveContext := by
  rw [heldAt, h]

theorem heldAt_shell {d : ShellData} (h : s.heap a = some (.shell d)) : s.heldAt a = 0 := by
  rw [heldAt, h]

theorem heldAt_none (h : s.heap a = none) : s.heldAt a = 0 := by
  rw [heldAt, h]

theorem heldAt_of_heap_eq (h : s'.heap = s.heap) : s'.heldAt = s.heldAt := by
  funext a
  rw [heldAt, heldAt, h]

@[simp] theorem heldAt_setShell {d : ShellData} :
    (s.setShell p d).heldAt = Function.update s.heldAt p 0 := by
  funext a
  by_cases h : a = p
  · subst h; simp [heldAt]
  · simp [heldAt, h]

@[simp] theorem heldAt_setCommand {c : CommandData} :
    (s.setCommand p c).heldAt = Function.update s.heldAt p c.receiveContext := by
  funext a
  by_cases h : a = p
  · subst h; simp [heldAt]
  · simp [heldAt, h]

@[simp] theorem heldAt_erase : (s.erase p).heldAt = Function.update s.heldAt p 0 := by
  funext a
  by_cases h : a = p
  · subst h; simp [heldAt]
  · simp [heldAt, h]

@[simp] theorem heldAt_alloc {c : Cell} : (s.alloc p c).heldAt = (s.write p c).heldAt := rfl

@[simp] theorem heldAt_write_shell {d : ShellData} :
    (s.write p (.shell d)).heldAt = Function.update s.heldAt p 0 := heldAt_setShell

@[simp] theorem heldAt_write_command {c : CommandData} :
    (s.write p (.command c)).heldAt = Function.update s.heldAt p c.receiveContext :=
  heldAt_setCommand

@[simp] theorem heldAt_withShellList {q : Addr} : { s with shellList := q }.heldAt = s.heldAt := rfl

@[simp] theorem heldAt_withRequests {r : List Addr} : { s with requests := r }.heldAt = s.heldAt :=
  rfl

/-- A shell holds no call, so rewriting a shell's cell changes no slot. -/
theorem update_heldAt_shell {d : ShellData} (h : s.heap p = some (.shell d)) :
    Function.update s.heldAt p 0 = s.heldAt :=
  Function.update_eq_self_iff.mpr (heldAt_shell h).symm

/-- Freeing the command at `k` and clearing the pointer of the shell at `p` empties the slot at
`k` only. -/
theorem heldAt_detach {d d' : ShellData} {k : Addr} {c : CommandData}
    (hp : s.heap p = some (.shell d)) (hk : s.heap k = some (.command c)) :
    ((s.erase k).setShell p d').heldAt = Function.update s.heldAt k 0 := by
  have hpk : p ≠ k := by rintro rfl; rw [hp] at hk; cases hk
  rw [heldAt_setShell, heldAt_erase,
    Function.update_eq_self_iff.mpr (by rw [Function.update_noteq hpk, heldAt_shell hp])]

@[simp] theorem heldAt_issue : (s.issue p).heldAt = s.heldAt := rfl

@[simp] theorem heldAt_allocFree : (s.allocFree p).heldAt = s.heldAt := rfl

end State

/-- What one event does to the held calls, with the calls `R` its final results complete;
`own` is the event's own call. -/
inductive Handoff (s s' : State) (own : Option Ctx) (R : List Ctx) : Prop
  /-- every slot keeps its call, and at most the event's own call is completed -/
  | keep : s'.heldAt = s.heldAt → R.Sublist own.toList → Handoff s s' own R
  /-- the event's own call is parked in the empty slot at `k`, and no call is completed -/
  | park {k : Addr} {c : Ctx} : own = some c → s.heldAt k = 0 →
      s'.heldAt = Function.update s.heldAt k c → R = [] → Handoff s s' own R
  /-- the slot at `k` is emptied, and at most its call and the event's own are completed -/
  | release {k : Addr} : s'.heldAt = Function.update s.heldAt k 0 →
      R.Sublist ((s.heldAt k :: own.toList).filter (· ≠ 0)) → Handoff s s' own R


/-! ## What each handler does to the slots -/

theorem completes_sendPosts (context receiveContext : Ctx) (cid : List Char) (req : SendRequest)
    (r : MIResult) :
    completes (sendPosts context receiveContext cid req r) =
      (receiveContext :: [context]).filter (· ≠ 0) := by
  unfold sendPosts
  by_cases h0 : receiveContext = 0 <;> by_cases h1 : context = 0 <;> by_cases hr : r = .ok <;>
    simp [h0, h1, hr]

theorem completes_signalReceivePosts {commandId : Option (List Char)} {c : CommandData}
    {receivePost : MIResult} {posts : List Post}
    (h : signalReceivePosts commandId c receivePost = .ok posts) :
    completes posts = [c.receiveContext].filter (· ≠ 0) := by
  unfold signalReceivePosts at h
  split_ifs at h with h0
  · cases h; simp [h0]
  · split at h
    · cases h
    · cases h; simp [h0]

/-- A final result on the event's own call, behind the slot's call. -/
theorem completes_own_sublist (context x : Ctx) (r : MIResult) :
    (completes [.result context r]).Sublist ((x :: [context]).filter (· ≠ 0)) := by
  by_cases h : context = 0
  · simp [h]
  · by_cases hx : x = 0 <;> simp [h, hx]

theorem enumerateFrom_completes {s : State} {context : Ctx} {post : ℕ → MIResult} :
    ∀ {fuel i : ℕ} {p : Addr} {posts : List Post},
      enumerateFrom s context post fuel i p = .ok posts → (completes posts).Sublist [context]
  | 0, _, _, _, h => by cases h
  | fuel + 1, i, p, posts, h => by
    unfold enumerateFrom at h
    by_cases hp : p = 0
    · rw [if_pos hp] at h; cases h; exact completes_single _ _
    rw [if_neg hp] at h
    split at h
    · cases h
    · by_cases hi : post i = .ok
      · rw [if_pos hi] at h
        split at h
        · cases h
        · rename_i hrec; cases h; rw [completes_inst]; exact enumerateFrom_completes hrec
      · rw [if_neg hi] at h; cases h; exact completes_single context (post i)

section Handlers

variable {s s' : State} {context : Ctx} {name : List Char} {posts : List Post}

/-- An event that leaves the heap as it was and answers its own call. -/
theorem Handoff.answer (hh : s'.heap = s.heap) (r : MIResult) :
    Handoff s s' (some context) (completes [.result context r]) :=
  .keep (State.heldAt_of_heap_eq hh) (completes_single context r)

theorem shellCreateInstance_handoff {outputStreams : Option (List Char)} {isCompressed : Bool}
    {calloc : Addr} {namesOk : Bool}
    (hv : (Event.createInstance context outputStreams isCompressed calloc namesOk).Valid P s)
    (h : shellCreateInstance P s context outputStreams isCompressed calloc namesOk = .ok (s', posts)) :
    Handoff s s' (some context) (completes posts) := by
  obtain ⟨hh, -, -, -, r, -, rfl⟩ | ⟨_, _, -, hc, -, rfl, rfl⟩ := shellCreateInstance_eq_ok h
  · exact .answer hh r
  · refine .keep ?_ (List.nil_sublist _)
    simp only [State.heldAt_withShellList, State.heldAt_issue, State.heldAt_alloc,
      State.heldAt_write_shell]
    exact Function.update_eq_self_iff.mpr (State.heldAt_none (hv.createInstance_free hc)).symm

theorem shellDeleteInstance_handoff (h : shellDeleteInstance s context name = .ok (s', posts)) :
    Handoff s s' (some context) (completes posts) := by
  obtain ⟨rfl, rfl⟩ | ⟨previous, p, d, s₁, -, -, hd, hr, rfl, rfl⟩ := shellDeleteInstance_eq_ok h
  · exact .answer rfl _
  refine .keep ?_ (completes_single _ _)
  have h₁ : s₁.heldAt = s.heldAt := by
    obtain ⟨-, rfl⟩ | ⟨dr, hdr, rfl⟩ := State.relink_eq_ok hr
    · rfl
    · rw [State.heldAt_setShell, State.update_heldAt_shell (State.shellAt_eq_ok.mp hdr).2]
  have hp := (State.shellAt_eq_ok.mp hd).2
  rw [State.heldAt_erase, h₁, State.update_heldAt_shell hp]

theorem shellGetInstance_handoff (h : shellGetInstance s context name = .ok (s', posts)) :
    Handoff s s' (some context) (completes posts) := by
  unfold shellGetInstance at h
  split at h
  · cases h
  · cases h; exact .answer rfl _
  · split at h
    · cases h
    · cases h; exact .keep rfl (completes_single context .ok)

theorem shellEnumerateInstances_handoff {post : ℕ → MIResult}
    (h : shellEnumerateInstances s context post = .ok (s', posts)) :
    Handoff s s' (some context) (completes posts) := by
  unfold shellEnumerateInstances at h
  split at h
  · cases h
  · cases h; exact .keep rfl (enumerateFrom_completes ‹_›)

theorem shellInvokeCommand_handoff {calloc : Addr} {clone : MIResult}
    (hv : (Event.invokeCommand context name calloc clone).Valid P s)
    (h : shellInvokeCommand P s context name calloc clone = .ok (s', posts)) :
    Handoff s s' (some context) (completes posts) := by
  obtain ⟨p, d, hf, -, hd, hcase⟩ := shellInvokeCommand_eq_ok h
  have hp := (State.shellAt_eq_ok.mp hd).2
  obtain ⟨c, -, hc, rfl, rfl⟩ | ⟨-, -, -, rfl, rfl⟩ | ⟨-, h0, -, rfl, rfl⟩ := hcase
  · exact .release (State.heldAt_detach hp (State.commandAt_eq_ok.mp hc).2)
      (completes_own_sublist _ _ _)
  · exact .answer State.allocFree_heap clone
  · have hfree := hv.invokeCommand_free h0 hf hd
    have hpc : p ≠ calloc := by rintro rfl; rw [hp] at hfree; cases hfree
    refine .park rfl (State.heldAt_none hfree) ?_ rfl
    simp only [State.heldAt_issue, State.heldAt_setShell, State.heldAt_alloc,
      State.heldAt_write_command]
    rw [Function.update_eq_self_iff.mpr (by rw [Function.update_noteq hpc, State.heldAt_shell hp])]
    rfl

theorem shellInvokeSend_handoff {req : SendRequest} {g : ℕ → UInt8}
    (h : shellInvokeSend P s context name req g = .ok (s', posts)) :
    Handoff s s' (some context) (completes posts) := by
  obtain ⟨rfl, rfl | rfl⟩ | ⟨_, d, c, _, _, -, -, -, hc, -, -, -, rfl, rfl⟩ :=
    shellInvokeSend_eq_ok h
  · exact .answer rfl _
  · exact .answer rfl _
  · refine .release State.heldAt_setCommand ?_
    rw [State.heldAt_command (State.commandAt_eq_ok.mp hc).2, completes_sendPosts]
    rfl

theorem shellInvokeReceive_handoff {commandId : Option (List Char)}
    (h : shellInvokeReceive s context name commandId = .ok (s', posts)) :
    Handoff s s' (some context) (completes posts) := by
  obtain ⟨rfl, r, -, rfl⟩ | ⟨_, d, c, -, -, -, hc, -, h0, rfl, rfl⟩ := shellInvokeReceive_eq_ok h
  · exact .answer rfl r
  · exact .park rfl (by rw [State.heldAt_command (State.commandAt_eq_ok.mp hc).2, h0])
      State.heldAt_setCommand rfl

theorem shellInvokeSignal_handoff {commandId : Option (List Char)}
    {receivePost signalPost : MIResult}
    (h : shellInvokeSignal s context name commandId receivePost signalPost = .ok (s', posts)) :
    Handoff s s' (some context) (completes posts) := by
  obtain ⟨p, d, c, -, -, hd, hc, rfl, hcase⟩ := shellInvokeSignal_eq_ok h
  have hk := (State.commandAt_eq_ok.mp hc).2
  refine .release (State.heldAt_detach (State.shellAt_eq_ok.mp hd).2 hk) ?_
  obtain ⟨-, -, -, rfl⟩ | ⟨-, rposts, hr, rfl⟩ := hcase
  · exact completes_own_sublist _ _ _
  · rw [completes_append, completes_signalReceivePosts hr, State.heldAt_command hk]
    by_cases h0 : c.receiveContext = 0 <;> by_cases h1 : context = 0 <;> simp [h0, h1]

theorem wsmanPluginReportContext_handoff {request : Addr} {handle : Handle} {post : MIResult}
    (hi : Inv P s) (h : wsmanPluginReportContext s request handle post = .ok (s', posts)) :
    Handoff s s' none (completes posts) := by
  obtain ⟨-, ⟨d, hd, -, rfl, hcase⟩ | ⟨c, hc, -, rfl, rfl⟩⟩ := wsmanPluginReportContext_eq_ok h
  · refine .keep ?_ (by simp [(hi.shell hd).2.2])
    rcases hcase with ⟨-, rfl⟩ | ⟨-, rfl⟩
    · rw [State.heldAt_setShell, State.heldAt_withRequests, State.update_heldAt_shell hd]
    · rw [State.heldAt_withShellList, State.heldAt_erase, State.heldAt_withRequests,
        State.update_heldAt_shell hd]
  · refine .keep ?_ (by simp [(hi.command hc).2.2])
    rw [State.heldAt_setCommand, State.heldAt_withRequests]
    exact Function.update_eq_self_iff.mpr (State.heldAt_command hc).symm

end Handlers

/-- **Every event hands calls over in one of the three ways.** -/
theorem step_handoff {s s' : State} {e : Event} {posts : List Post} (hi : Inv P s)
    (hv : e.Valid P s) (h : step P s e = .ok (s', posts)) :
    Handoff s s' e.call (completes posts) := by
  cases e with
  | createInstance => exact shellCreateInstance_handoff hv h
  | deleteInstance => exact shellDeleteInstance_handoff h
  | getInstance => exact shellGetInstance_handoff h
  | enumerateInstances => exact shellEnumerateInstances_handoff h
  | modifyInstance | invokeConnect => cases h; exact .answer rfl _
  | invokeCommand => exact shellInvokeCommand_handoff hv h
  | invokeSend => exact shellInvokeSend_handoff h
  | invokeReceive => exact shellInvokeReceive_handoff h
  | invokeSignal => exact shellInvokeSignal_handoff h
  | reportContext => exact wsmanPluginReportContext_handoff hi h

/-! ## Waiting calls -/

/-- The calls the slots hold are waiting calls of `O`, each held at one address. -/
structure Waiting (s : State) (O : List Ctx) : Prop where
  mem : ∀ a, s.heldAt a ≠ 0 → s.heldAt a ∈ O
  unique : ∀ a b, s.heldAt a ≠ 0 → s.heldAt b = s.heldAt a → b = a

theorem Waiting.init : Waiting State.init [] :=
  ⟨fun _ h => absurd (State.heldAt_none rfl) h, fun _ _ h => absurd (State.heldAt_none rfl) h⟩

section Step

variable {s s' : State} {O : List Ctx} {own : Option Ctx} {R : List Ctx}

/-- A call an event completes is its own, or one held in a slot the event empties. -/
theorem Handoff.mem (hh : Handoff s s' own R) {x : Ctx} (hx : x ∈ R) :
    x ∈ own.toList ∨ ∃ k, s.heldAt k = x ∧ x ≠ 0 ∧ s'.heldAt k = 0 := by
  cases hh with
  | keep _ hR => exact .inl (hR.subset hx)
  | park _ _ _ hR => simp [hR] at hx
  | @release k hs hR =>
    obtain ⟨hm, h0⟩ := List.mem_filter.mp (hR.subset hx)
    rcases List.mem_cons.mp hm with rfl | hm
    · exact .inr ⟨k, rfl, of_decide_eq_true h0, by rw [hs, Function.update_same]⟩
    · exact .inl hm

/-- A call the event leaves in its slot is not among those it completes. -/
theorem Handoff.not_mem (hh : Handoff s s' own R) (hw : Waiting s O)
    (hf : ∀ c, own = some c → c ∉ O) {a : Addr} (h0 : s.heldAt a ≠ 0)
    (ha : s'.heldAt a = s.heldAt a) : s.heldAt a ∉ R := by
  intro hm
  rcases hh.mem hm with hown | ⟨k, hk, -, hk0⟩
  · exact hf _ (Option.mem_toList.mp hown) (hw.mem a h0)
  · rw [hw.unique a k h0 hk, ha] at hk0
    exact h0 hk0

/-- **One event keeps the held calls waiting.** -/
theorem Waiting.step (hw : Waiting s O) (hf : ∀ c, own = some c → c ∉ O)
    (hh : Handoff s s' own R) : Waiting s' ((own.toList ++ O).filter (· ∉ R)) := by
  -- a slot the event leaves as it was still holds a waiting call
  have kept : ∀ a, s'.heldAt a = s.heldAt a → s'.heldAt a ≠ 0 →
      s'.heldAt a ∈ (own.toList ++ O).filter (· ∉ R) := fun a ha h0 => by
    rw [ha] at h0 ⊢
    exact List.mem_filter.mpr ⟨List.mem_append_right _ (hw.mem a h0),
      decide_eq_true (hh.not_mem hw hf h0 ha)⟩
  cases hh with
  | keep hs hR =>
    refine ⟨fun a => kept a (congrFun hs a), fun a b h0 hb => ?_⟩
    rw [hs] at h0 hb
    exact hw.unique a b h0 hb
  | @park k c hc _ hs hR =>
    have hO : ∀ a, a ≠ k → s'.heldAt a = s.heldAt a := fun a hak => by
      rw [hs, Function.update_noteq hak]
    have hck : s'.heldAt k = c := by rw [hs, Function.update_same]
    -- a call held away from `k` is an old waiting call, so it is not the parked one
    have hne : ∀ a, a ≠ k → s'.heldAt a ≠ 0 → s'.heldAt a ≠ c := fun a hak h0 he => by
      rw [hO a hak] at h0 he
      exact hf c hc (he ▸ hw.mem a h0)
    refine ⟨fun a h0 => ?_, fun a b h0 hb => ?_⟩
    · by_cases hak : a = k
      · subst hak
        rw [hck]
        exact List.mem_filter.mpr ⟨by simp [hc], by simp [hR]⟩
      · exact kept a (hO a hak) h0
    · by_cases hak : a = k <;> by_cases hbk : b = k
      · rw [hak, hbk]
      · subst hak
        exact absurd (hb.trans hck) (hne b hbk (hb ▸ h0))
      · subst hbk
        exact absurd (hb.symm.trans hck) (hne a hak h0)
      · rw [hO a hak] at h0 hb
        rw [hO b hbk] at hb
        exact hw.unique a b h0 hb
  | @release k hs hR =>
    have hO : ∀ a, s'.heldAt a ≠ 0 → a ≠ k ∧ s'.heldAt a = s.heldAt a := fun a h0 => by
      have hak : a ≠ k := by rintro rfl; rw [hs, Function.update_same] at h0; exact h0 rfl
      exact ⟨hak, by rw [hs, Function.update_noteq hak]⟩
    refine ⟨fun a h0 => kept a (hO a h0).2 h0, fun a b h0 hb => ?_⟩
    have hb0 : s'.heldAt b ≠ 0 := hb ▸ h0
    rw [(hO a h0).2, (hO b hb0).2] at hb
    exact hw.unique a b ((hO a h0).2 ▸ h0) hb

/-- The calls one event completes are distinct, each waiting or the event's own. -/
theorem Handoff.answers_waiting (hh : Handoff s s' own R) (hw : Waiting s O)
    (hf : ∀ c, own = some c → c ∉ O) : R.Nodup ∧ ∀ c ∈ R, c ∈ own.toList ++ O := by
  refine ⟨?_, fun c hc => (hh.mem hc).elim (List.mem_append_left _)
    fun ⟨k, hk, h0, _⟩ => List.mem_append_right _ (hk ▸ hw.mem k (hk ▸ h0))⟩
  have hown : own.toList.Nodup := by cases own <;> simp
  cases hh with
  | keep _ hR => exact hR.nodup hown
  | park _ _ _ hR => exact hR ▸ List.nodup_nil
  | @release k _ hR =>
    refine hR.nodup ?_
    by_cases h0 : s.heldAt k = 0
    · simpa [h0] using hown.filter _
    · have hk : s.heldAt k ∉ own.toList := fun hm => hf _ (Option.mem_toList.mp hm) (hw.mem k h0)
      rw [List.filter_cons_of_pos (by simpa using h0)]
      exact List.nodup_cons.mpr ⟨fun hm => hk (List.mem_filter.mp hm).1, hown.filter _⟩

end Step

/-! ## Histories -/

/-- One event as the MI layer delivers it, with the calls still waiting: a call comes with a
non-`NULL` context that no waiting call holds, and the calls its final results complete stop
waiting. -/
inductive Serve (P : Platform) : State × List Ctx → State × List Ctx → Prop
  | step {s s' : State} {O : List Ctx} {e : Event} {posts : List Post} :
      e.Valid P s → (∀ c, e.call = some c → c ≠ 0 ∧ c ∉ O) → step P s e = .ok (s', posts) →
      Serve P (s, O) (s', (e.call.toList ++ O).filter (· ∉ completes posts))

/-- The states histories from `Shell_Load` reach, with the calls waiting there. -/
def Served (P : Platform) (s : State) (O : List Ctx) : Prop :=
  Relation.ReflTransGen (Serve P) (State.init, []) (s, O)

/-- Along a history the states stay reachable and the held calls waiting. -/
theorem Serve.reachable_waiting {x y : State × List Ctx} (h : Relation.ReflTransGen (Serve P) x y)
    (hr : Reachable P x.1) (hw : Waiting x.1 x.2) : Reachable P y.1 ∧ Waiting y.1 y.2 := by
  induction h with
  | refl => exact ⟨hr, hw⟩
  | tail _ hstep ih =>
    obtain ⟨hr', hw'⟩ := ih
    cases hstep with
    | step hv hf hs =>
      exact ⟨.step hr' hv hs, hw'.step (fun c hc => (hf c hc).2) (step_handoff hr'.inv hv hs)⟩

theorem Served.waiting {s : State} {O : List Ctx} (hs : Served P s O) :
    Reachable P s ∧ Waiting s O :=
  Serve.reachable_waiting hs .init .init

theorem Served.serve {s s' : State} {O : List Ctx} {e : Event} {posts : List Post}
    (hs : Served P s O) (hv : e.Valid P s) (hf : ∀ c, e.call = some c → c ≠ 0 ∧ c ∉ O)
    (h : step P s e = .ok (s', posts)) :
    Served P s' ((e.call.toList ++ O).filter (· ∉ completes posts)) :=
  hs.tail (.step hv hf h)

/-- **No call is answered twice.** In every history, an event whose call comes with a
non-`NULL` context that no waiting call holds posts its final results on distinct calls, each
of them waiting or the event's own: a call once answered is never answered again, and the
provider answers no call it was not handed. -/
theorem completes_waiting {s s' : State} {O : List Ctx} {e : Event} {posts : List Post}
    (hs : Served P s O) (hv : e.Valid P s) (hf : ∀ c, e.call = some c → c ≠ 0 ∧ c ∉ O)
    (h : step P s e = .ok (s', posts)) :
    (completes posts).Nodup ∧ ∀ c ∈ completes posts, c ∈ e.call.toList ++ O := by
  obtain ⟨hr, hw⟩ := hs.waiting
  exact (step_handoff hr.inv hv h).answers_waiting hw fun c hc => (hf c hc).2

/-! ## A history to run on -/

theorem served_oneShell : Served P (oneShell P) [1] :=
  Served.serve .refl (createAt_valid room_first) (fun c h => by cases h; decide)
    (step_createStdoutAt (by decide))

theorem served_withCommand : Served P (withCommand P) [2, 1] :=
  served_oneShell.serve invokeCommand_oneShell_valid (fun c h => by cases h; decide)
    invokeCommand_oneShell

/-- A Send ending `stdout` on the command at `0x200000000` of `withCommand`, without data. -/
theorem step_endStdout_withCommand :
    step Platform.sample (withCommand Platform.sample)
        (.invokeSend 3 (Platform.sample.shellIdAt 16) (endStdout Platform.sample) fun _ => 0) =
      .ok ((withCommand Platform.sample).setCommand 0x200000000
        { newCommand Platform.sample 0x200000000 16 (shell16 Platform.sample) 2 with
          receiveContext := 0 },
        sendPosts 3 2 (Platform.sample.commandIdAt 0x200000000) (endStdout Platform.sample) .ok) := by
  have hf : findShell (withCommand Platform.sample) (Platform.sample.shellIdAt 16) = .ok 16 :=
    findShell_head (d := { shell16 Platform.sample with command := 0x200000000 }) rfl (by decide)
      rfl
  simp only [step, shellInvokeSend, hf]
  rfl

/-- That Send answers the Invoke_Command call 2 parked in the command's `receiveContext`, and its
own call 3. -/
theorem completes_waiting_endStdout :
    step Platform.sample (withCommand Platform.sample)
        (.invokeSend 3 (Platform.sample.shellIdAt 16) (endStdout Platform.sample) fun _ => 0) =
      .ok ((withCommand Platform.sample).setCommand 0x200000000
        { newCommand Platform.sample 0x200000000 16 (shell16 Platform.sample) 2 with
          receiveContext := 0 },
        sendPosts 3 2 (Platform.sample.commandIdAt 0x200000000) (endStdout Platform.sample) .ok) ∧
    completes (sendPosts 3 2 (Platform.sample.commandIdAt 0x200000000)
      (endStdout Platform.sample) .ok) = [2, 3] ∧
    (completes (sendPosts 3 2 (Platform.sample.commandIdAt 0x200000000)
      (endStdout Platform.sample) .ok)).Nodup ∧
    ∀ c ∈ completes (sendPosts 3 2 (Platform.sample.commandIdAt 0x200000000)
      (endStdout Platform.sample) .ok), c ∈ [3, 2, 1] :=
  ⟨step_endStdout_withCommand, rfl, completes_waiting served_withCommand (by trivial)
    (fun c hc => by cases hc; decide) step_endStdout_withCommand⟩

/-! ## Whole runs -/

@[simp] theorem filterMap_call_cons (e : Event) (es : List Event) :
    (e :: es).filterMap Event.call = e.call.toList ++ es.filterMap Event.call := by
  cases h : e.call <;> simp [List.filterMap_cons, h]

/-- Along a run that continues a history, with calls on distinct fresh contexts, the final
results go to distinct calls, and those of the first `n` events to calls that were waiting or
that those events made. -/
theorem Served.run_completes :
    ∀ {es : List Event} {s s' : State} {O : List Ctx} {postss : List (List Post)},
      Served P s O → ValidRun P s es → (es.filterMap Event.call).Nodup →
      (∀ c ∈ es.filterMap Event.call, c ≠ 0 ∧ c ∉ O) → run P s es = .ok (s', postss) →
      (postss.flatMap completes).Nodup ∧
        ∀ n, ∀ c ∈ (postss.take n).flatMap completes, c ∈ O ++ (es.take n).filterMap Event.call
  | [], _, _, _, _, _, _, _, _, h => by
    simp only [run, Except.ok.injEq, Prod.mk.injEq] at h
    obtain ⟨-, rfl⟩ := h
    simp
  | e :: es, s, s', O, postss, hs, ⟨hv, hrest⟩, hnd, hf, h => by
    simp only [run] at h
    split at h
    · cases h
    rename_i s₁ posts hstep
    split at h
    · cases h
    rename_i s₂ postss' hrun
    simp only [Except.ok.injEq, Prod.mk.injEq] at h
    obtain ⟨-, rfl⟩ := h
    rw [filterMap_call_cons] at hnd hf
    obtain ⟨-, hnd', hdis⟩ := List.nodup_append.mp hnd
    have hfe : ∀ c, e.call = some c → c ≠ 0 ∧ c ∉ O := fun c hc =>
      hf c (List.mem_append_left _ (Option.mem_toList.mpr hc))
    -- the later calls are neither this event's nor waiting before it
    have hlater : ∀ c ∈ es.filterMap Event.call, c ∉ e.call.toList ++ O := fun c hc hm =>
      (List.mem_append.mp hm).elim (fun h₁ => hdis h₁ hc)
        fun h₁ => (hf c (List.mem_append_right _ hc)).2 h₁
    obtain ⟨hr, hw⟩ := hs.waiting
    obtain ⟨hR, hsub⟩ := (step_handoff hr.inv hv hstep).answers_waiting hw
      fun c hc => (hfe c hc).2
    obtain ⟨ihn, ihsub⟩ := Served.run_completes (hs.serve hv hfe hstep) (hrest _ _ hstep) hnd'
      (fun c hc => ⟨(hf c (List.mem_append_right _ hc)).1,
        fun hm => hlater c hc (List.mem_filter.mp hm).1⟩) hrun
    -- a call answered later was still waiting after this event, or made later
    have hrest' : ∀ n, ∀ c ∈ (postss'.take n).flatMap completes,
        c ∈ e.call.toList ++ O ∧ c ∉ completes posts ∨ c ∈ (es.take n).filterMap Event.call :=
      fun n c hc => (List.mem_append.mp (ihsub n c hc)).imp_left fun h₁ =>
        ⟨(List.mem_filter.mp h₁).1, of_decide_eq_true (List.mem_filter.mp h₁).2⟩
    refine ⟨?_, fun n c hc => ?_⟩
    · rw [List.flatMap_cons]
      refine List.nodup_append.mpr ⟨hR, ihn, fun x hx hy => ?_⟩
      rcases hrest' postss'.length x (by rwa [List.take_length]) with h₁ | h₁
      · exact h₁.2 hx
      · exact hlater x (((List.take_sublist _ es).filterMap _).subset h₁) (hsub x hx)
    · cases n with
      | zero => simp at hc
      | succ n =>
        rw [List.take_succ_cons, List.flatMap_cons, List.mem_append] at hc
        rw [List.take_succ_cons, filterMap_call_cons]
        have hmove : ∀ {c}, c ∈ e.call.toList ++ O →
            c ∈ O ++ (e.call.toList ++ (es.take n).filterMap Event.call) := fun h₂ =>
          (List.mem_append.mp h₂).elim (fun h₃ => List.mem_append_right _ (List.mem_append_left _ h₃))
            (List.mem_append_left _)
        rcases hc with h₁ | h₁
        · exact hmove (hsub c h₁)
        · exact (hrest' n c h₁).elim (fun h₂ => hmove h₂.1)
            fun h₂ => List.mem_append_right _ (List.mem_append_right _ h₂)

/-- **Over a whole run no call is answered twice, nor before it is made.** In every run of the
provider from `Shell_Load` whose events keep the environment's contract and whose calls come
with distinct non-`NULL` contexts, the final results of all its posts go to distinct contexts,
and those the first `n` events post go to calls among the first `n`. -/
theorem run_answers_once {es : List Event} {s : State} {postss : List (List Post)}
    (hv : ValidRun P State.init es) (hnd : (es.filterMap Event.call).Nodup)
    (h0 : 0 ∉ es.filterMap Event.call) (h : run P State.init es = .ok (s, postss)) :
    (postss.flatMap completes).Nodup ∧
      ∀ n, ∀ c ∈ (postss.take n).flatMap completes, c ∈ (es.take n).filterMap Event.call := by
  obtain ⟨hn, hsub⟩ := Served.run_completes .refl hv hnd
    (fun c hc => ⟨fun h' => h0 (h' ▸ hc), List.not_mem_nil c⟩) h
  exact ⟨hn, fun n c hc => by simpa using hsub n c hc⟩

/-- Create a shell at 16 with context 1, invoke a command at `0x200000000` with context 2, then
end `stdout` with a Send with context 3. -/
def sendRun : List Event :=
  [createAt ["stdout".toList] 16, .invokeCommand 2 (Platform.sample.shellIdAt 16) 0x200000000 .ok,
    .invokeSend 3 (Platform.sample.shellIdAt 16) (endStdout Platform.sample) fun _ => 0]

theorem run_sendRun :
    ValidRun Platform.sample State.init sendRun ∧
      run Platform.sample State.init sendRun =
        .ok ((withCommand Platform.sample).setCommand 0x200000000
          { newCommand Platform.sample 0x200000000 16 (shell16 Platform.sample) 2 with
            receiveContext := 0 },
          [[], [], sendPosts 3 2 (Platform.sample.commandIdAt 0x200000000)
            (endStdout Platform.sample) .ok]) := by
  have h₁ : step Platform.sample State.init (createAt ["stdout".toList] 16) =
      .ok (oneShell Platform.sample, []) := step_createStdoutAt (by decide)
  have h₂ : step Platform.sample (oneShell Platform.sample)
      (.invokeCommand 2 (Platform.sample.shellIdAt 16) 0x200000000 .ok) =
      .ok (withCommand Platform.sample, []) := invokeCommand_oneShell (P := Platform.sample)
  refine ⟨.cons (createAt_valid room_first) h₁ (.cons invokeCommand_oneShell_valid h₂
    (.cons trivial step_endStdout_withCommand trivial)), ?_⟩
  simp only [sendRun, run, h₁, h₂, step_endStdout_withCommand]

/-- The run's final results, to 2 and 3, are distinct and each follows its call. -/
theorem run_answers_once_sendRun :
    ([[], [], sendPosts 3 2 (Platform.sample.commandIdAt 0x200000000)
        (endStdout Platform.sample) .ok] : List (List Post)).flatMap completes = [2, 3] ∧
      ((([[], [], sendPosts 3 2 (Platform.sample.commandIdAt 0x200000000)
        (endStdout Platform.sample) .ok] : List (List Post)).flatMap completes).Nodup ∧
      ∀ n, ∀ c ∈ (([[], [], sendPosts 3 2 (Platform.sample.commandIdAt 0x200000000)
          (endStdout Platform.sample) .ok] : List (List Post)).take n).flatMap completes,
        c ∈ (sendRun.take n).filterMap Event.call) :=
  ⟨rfl, run_answers_once run_sendRun.1 (by decide) (by decide) run_sendRun.2⟩

end ShellProvider

import ShellProvider.Run

/-!
# What each handler can do

One lemma per handler lists every way it can return normally: the state it leaves, the posts
it makes, and the guards of that path. Later proofs case on these lemmas and never unfold a
handler again.
-/

namespace ShellProvider

variable {P : Platform} {s s' : State} {context : Ctx} {name : List Char} {posts : List Post}

theorem shellCreateInstance_eq_ok {outputStreams : Option (List Char)} {isCompressed : Bool}
    {calloc : Addr} {namesOk : Bool}
    (h : shellCreateInstance P s context outputStreams isCompressed calloc namesOk = .ok (s', posts)) :
    (s'.heap = s.heap ∧ s'.shellList = s.shellList ∧ s'.requests = s.requests ∧
      (∀ a ∈ s.allocs, a ∈ s'.allocs) ∧ ∃ r, r ≠ .ok ∧ posts = [.result context r]) ∨
    (∃ streams names, outputStreams = some streams ∧ calloc ≠ 0 ∧
      extractOutboundStreams streams namesOk = .ok (some names) ∧
      s' = { (s.alloc calloc (.shell (newShell P calloc s.shellList names isCompressed))).issue
        calloc with shellList := calloc } ∧ posts = []) := by
  unfold shellCreateInstance at h
  split at h
  · cases h; exact .inl ⟨rfl, rfl, rfl, fun _ m => m, _, by decide, rfl⟩
  rename_i streams
  split_ifs at h with hc
  · cases h; exact .inl ⟨rfl, rfl, rfl, fun _ m => m, _, by decide, rfl⟩
  split at h
  · cases h
  · cases h; exact .inl ⟨rfl, rfl, rfl, fun _ m => List.mem_cons_of_mem _ m, _, by decide, rfl⟩
  · cases h; exact .inr ⟨streams, _, rfl, hc, ‹_›, rfl, rfl⟩

theorem State.relink_eq_ok {previous next : Addr} (h : s.relink previous next = .ok s') :
    (previous = 0 ∧ s' = { s with shellList := next }) ∨
    (∃ d, s.shellAt previous = .ok d ∧ s' = s.setShell previous { d with nextShell := next }) := by
  unfold State.relink at h
  split_ifs at h with hp
  · cases h; exact .inl ⟨hp, rfl⟩
  split at h
  · cases h
  · cases h; exact .inr ⟨_, ‹_›, rfl⟩

theorem shellDeleteInstance_eq_ok (h : shellDeleteInstance s context name = .ok (s', posts)) :
    (s' = s ∧ posts = [.result context .notFound]) ∨
    (∃ previous p d s₁,
      findShellLink s name (s.allocs.length + 1) 0 s.shellList = .ok (previous, p) ∧ p ≠ 0 ∧
      s.shellAt p = .ok d ∧ s.relink previous d.nextShell = .ok s₁ ∧
      s' = s₁.erase p ∧ posts = [.result context .ok]) := by
  unfold shellDeleteInstance at h
  split at h
  · cases h
  · cases h; exact .inl ⟨rfl, rfl⟩
  · rename_i previous p hp0 hfind
    split at h
    · cases h
    · split at h
      · cases h
      · cases h; exact .inr ⟨previous, p, _, _, hfind, hp0, ‹_›, ‹_›, rfl, rfl⟩

theorem shellInvokeCommand_eq_ok {calloc : Addr} {clone : MIResult}
    (h : shellInvokeCommand P s context name calloc clone = .ok (s', posts)) :
    ∃ p d, findShell s name = .ok p ∧ p ≠ 0 ∧ s.shellAt p = .ok d ∧
      ((∃ c, d.command ≠ 0 ∧ s.commandAt d.command = .ok c ∧
          s' = (s.erase d.command).setShell p { d with command := 0 } ∧
          posts = [.result context .alreadyExists]) ∨
        (d.command = 0 ∧ calloc ≠ 0 ∧ clone ≠ .ok ∧ s' = s.allocFree calloc ∧
          posts = [.result context clone]) ∨
        (d.command = 0 ∧ calloc ≠ 0 ∧ clone = .ok ∧
          s' = ((s.alloc calloc (.command (newCommand P calloc p d context))).setShell p
            { d with command := calloc }).issue calloc ∧ posts = [])) := by
  unfold shellInvokeCommand at h
  split at h
  · cases h
  · cases h
  · rename_i p hp0 hp
    split at h
    · cases h
    · rename_i d hd
      refine ⟨p, d, hp, hp0, hd, ?_⟩
      split_ifs at h with h1 h2 h3
      · split at h
        · cases h
        · cases h; exact .inl ⟨_, h1, ‹_›, rfl, rfl⟩
      · cases h; exact .inr (.inr ⟨not_not.mp h1, h2, h3, rfl, rfl⟩)
      · cases h; exact .inr (.inl ⟨not_not.mp h1, h2, h3, rfl, rfl⟩)

theorem wsmanPluginReportContext_eq_ok {request : Addr} {handle : Handle} {post : MIResult}
    (h : wsmanPluginReportContext s request handle post = .ok (s', posts)) :
    request ≠ 0 ∧
    ((∃ d, s.heap request = some (.shell d) ∧ isShellByte d ≠ 0 ∧
        posts = [.inst d.requestContext (.shell d.shellId), .result d.requestContext post] ∧
        ((post = .ok ∧ s' = { s with requests := s.requests.erase request }.setShell request
            { d with pluginShellContext := handle }) ∨
          (post ≠ .ok ∧ s' = { { s with requests := s.requests.erase request }.erase request with
            shellList := d.nextShell }))) ∨
      (∃ c, s.heap request = some (.command c) ∧ post = .ok ∧
        s' = { s with requests := s.requests.erase request }.setCommand request
          { c with pluginCommandContext := handle } ∧
        posts = [.inst c.commandContext (.command c.commandId), .result c.commandContext .ok])) := by
  unfold wsmanPluginReportContext at h
  dsimp only at h
  split at h
  · cases h
  · rename_i d hd
    obtain ⟨hr, hd⟩ := State.cell_eq_ok.mp hd
    split_ifs at h with h1 h2
    · cases h; exact ⟨hr, .inl ⟨d, hd, h1, rfl, .inl ⟨h2, rfl⟩⟩⟩
    · cases h; exact ⟨hr, .inl ⟨d, hd, h1, rfl, .inr ⟨h2, rfl⟩⟩⟩
  · rename_i c hc
    obtain ⟨hr, hc⟩ := State.cell_eq_ok.mp hc
    split_ifs at h with h1
    cases h; exact ⟨hr, .inr ⟨c, hc, h1, rfl, rfl⟩⟩

theorem shellGetInstance_eq_ok (h : shellGetInstance s context name = .ok (s', posts)) :
    s' = s := by
  unfold shellGetInstance at h
  split at h <;> try split at h
  all_goals first | cases h; rfl | cases h

theorem shellEnumerateInstances_eq_ok {post : ℕ → MIResult}
    (h : shellEnumerateInstances s context post = .ok (s', posts)) : s' = s := by
  unfold shellEnumerateInstances at h
  split at h
  · cases h
  · cases h; rfl

theorem shellInvokeSend_eq_ok {req : SendRequest} {g : ℕ → UInt8}
    (h : shellInvokeSend P s context name req g = .ok (s', posts)) :
    (s' = s ∧ (posts = [.result context .notFound] ∨ posts = [.result context .notSupported])) ∨
    (∃ p d c streams r, findShell s name = .ok p ∧ p ≠ 0 ∧ s.shellAt p = .ok d ∧
      s.commandAt d.command = .ok c ∧ req.commandId = some c.commandId ∧
      (if req.endOfStream then
          markStreamDone req.streamName c.outboundStreams 0 d.outboundStreamNames.length
        else .ok c.outboundStreams) = .ok streams ∧
      inboundResult P g d.isCompressed req = .ok r ∧
      s' = s.setCommand d.command { c with receiveContext := 0, outboundStreams := streams } ∧
      posts = sendPosts context c.receiveContext c.commandId req r) := by
  simp only [shellInvokeSend, pure_eq_ok, ok_bind, bind_eq_ok] at h
  obtain ⟨p, hp, h⟩ := h
  by_cases hp0 : p = 0
  · simp only [hp0, ↓reduceIte] at h; cases h; exact .inl ⟨rfl, .inl rfl⟩
  simp only [hp0, ↓reduceIte] at h
  rcases hcid : req.commandId with _ | cid
  · simp only [hcid] at h; cases h; exact .inl ⟨rfl, .inr rfl⟩
  simp only [hcid, bind_eq_ok] at h
  obtain ⟨d, hd, c, hc, h⟩ := h
  by_cases h1 : cid = c.commandId
  · subst h1
    simp only [ne_eq, not_true_eq_false, ↓reduceIte] at h
    refine .inr ?_
    cases heos : req.endOfStream <;> simp only [heos, Bool.false_eq_true, ↓reduceIte, bind_eq_ok, ok_bind] at h ⊢
    · obtain ⟨r, hr, h⟩ := h
      cases h
      exact ⟨p, d, c, _, r, hp, hp0, hd, hc, rfl, rfl, hr, rfl, rfl⟩
    · obtain ⟨streams, hs, r, hr, h⟩ := h
      cases h
      exact ⟨p, d, c, streams, r, hp, hp0, hd, hc, rfl, hs, hr, rfl, rfl⟩
  · simp only [ne_eq, h1, not_false_eq_true, ↓reduceIte] at h
    cases h; exact .inl ⟨rfl, .inl rfl⟩

theorem shellInvokeReceive_eq_ok {commandId : Option (List Char)}
    (h : shellInvokeReceive s context name commandId = .ok (s', posts)) :
    (s' = s ∧ ∃ r, r ≠ .ok ∧ posts = [.result context r]) ∨
    (∃ p d c, findShell s name = .ok p ∧ p ≠ 0 ∧ s.shellAt p = .ok d ∧
      s.commandAt d.command = .ok c ∧ commandId = some c.commandId ∧ c.receiveContext = 0 ∧
      s' = s.setCommand d.command { c with receiveContext := context } ∧ posts = []) := by
  simp only [shellInvokeReceive, pure_eq_ok, ok_bind, bind_eq_ok] at h
  obtain ⟨p, hp, h⟩ := h
  split_ifs at h with hp0
  · cases h; exact .inl ⟨rfl, _, by decide, rfl⟩
  rcases commandId with _ | cid
  · cases h; exact .inl ⟨rfl, _, by decide, rfl⟩
  simp only [bind_eq_ok] at h
  obtain ⟨d, hd, c, hc, h⟩ := h
  split_ifs at h with h1 h2
  · cases h; exact .inl ⟨rfl, _, by decide, rfl⟩
  · cases h; exact .inl ⟨rfl, _, by decide, rfl⟩
  · cases h
    exact .inr ⟨p, d, c, hp, hp0, hd, hc, by simpa using h1, by simpa using h2, rfl, rfl⟩

theorem shellInvokeSignal_eq_ok {commandId : Option (List Char)} {receivePost signalPost : MIResult}
    (h : shellInvokeSignal s context name commandId receivePost signalPost = .ok (s', posts)) :
    ∃ p d c, findShell s name = .ok p ∧ p ≠ 0 ∧ s.shellAt p = .ok d ∧
      s.commandAt d.command = .ok c ∧
      s' = (s.erase d.command).setShell p { d with command := 0 } ∧
      ((∃ cid, commandId = some cid ∧ cid ≠ c.commandId ∧ posts = [.result context .notFound]) ∨
        ((∀ cid, commandId = some cid → cid = c.commandId) ∧ ∃ rposts,
          signalReceivePosts commandId c receivePost = .ok rposts ∧
          posts = rposts ++ [.inst context .signal, .result context signalPost])) := by
  simp only [shellInvokeSignal, pure_eq_ok, ok_bind, bind_eq_ok] at h
  obtain ⟨p, hp, h⟩ := h
  by_cases hp0 : p = 0
  · simp only [hp0, ↓reduceIte] at h; cases h
  simp only [hp0, ↓reduceIte, bind_eq_ok] at h
  obtain ⟨d, hd, c, hc, h⟩ := h
  refine ⟨p, d, c, hp, hp0, hd, hc, ?_⟩
  rcases commandId with _ | cid
  · simp only [bind_eq_ok] at h
    obtain ⟨rposts, hr, h⟩ := h
    cases h
    exact ⟨rfl, .inr ⟨(fun _ h => by cases h), rposts, hr, rfl⟩⟩
  by_cases h1 : cid = c.commandId
  · subst h1
    simp only [ne_eq, not_true_eq_false, ↓reduceIte, bind_eq_ok] at h
    obtain ⟨rposts, hr, h⟩ := h
    cases h
    exact ⟨rfl, .inr ⟨(fun _ h => by cases h; rfl), rposts, hr, rfl⟩⟩
  · simp only [ne_eq, h1, not_false_eq_true, ↓reduceIte] at h
    cases h; exact ⟨rfl, .inl ⟨cid, rfl, h1, rfl⟩⟩

/-! ## Paths taken

The converse direction for the paths the runs below take: under these guards, the handler
returns this. -/

theorem shellCreateInstance_accept {streams : List Char} {names : List (List Char)}
    {isCompressed : Bool} {calloc : Addr} (hc : calloc ≠ 0)
    (hx : extractOutboundStreams streams true = .ok (some names)) :
    shellCreateInstance P s context (some streams) isCompressed calloc true =
      .ok ({ (s.alloc calloc (.shell (newShell P calloc s.shellList names isCompressed))).issue
        calloc with shellList := calloc }, []) := by
  simp only [shellCreateInstance, if_neg hc, hx]

/-- `FindShell` stops at the head of the list when the head carries the ID. -/
theorem findShell_head {p : Addr} {d : ShellData} (hl : s.shellList = p) (hp : p ≠ 0)
    (hd : s.heap p = some (.shell d)) : findShell s d.shellId = .ok p := by
  rw [findShell, hl, findShellFrom, if_neg hp, State.shellAt_eq_ok.mpr ⟨hp, hd⟩]
  exact if_pos rfl

theorem shellInvokeCommand_accept {calloc p : Addr} {d : ShellData}
    (hf : findShell s name = .ok p) (hp : p ≠ 0) (hd : s.shellAt p = .ok d) (hnc : d.command = 0)
    (hc : calloc ≠ 0) :
    shellInvokeCommand P s context name calloc .ok =
      .ok (((s.alloc calloc (.command (newCommand P calloc p d context))).setShell p
        { d with command := calloc }).issue calloc, []) := by
  rw [shellInvokeCommand, hf]
  split
  · contradiction
  · rename_i h; cases h; exact absurd rfl hp
  · rename_i h; cases h
    simp only [hd, hnc, ne_eq, not_true_eq_false, ↓reduceIte, hc]

/-- `Shell_GetInstance` when `FindShell` finds no shell. -/
theorem shellGetInstance_notFound (hf : findShell s name = .ok 0) :
    shellGetInstance s context name = .ok (s, [.result context .notFound]) := by
  rw [shellGetInstance, hf]

/-- `Shell_GetInstance` when `FindShell` returns the shell at `p`. -/
theorem shellGetInstance_found {p : Addr} {d : ShellData} (hf : findShell s name = .ok p)
    (hp : p ≠ 0) (hd : s.shellAt p = .ok d) :
    shellGetInstance s context name = .ok (s, [.inst context (.shell d.shellId), .result context .ok]) := by
  rw [shellGetInstance, hf]
  split
  · contradiction
  · rename_i h; cases h; exact absurd rfl hp
  · rename_i h; cases h; rw [hd]

/-- `Shell_Invoke_Send` naming the command of the shell `FindShell` returns: the receive slot is
emptied, the stream table is what the end-of-stream loop leaves, and the posts are those of
the decoded data's result. -/
theorem shellInvokeSend_found {p : Addr} {d : ShellData} {c : CommandData} {req : SendRequest}
    {g : ℕ → UInt8} {streams : List StreamData} {r : MIResult}
    (hf : findShell s name = .ok p) (hp : p ≠ 0) (hd : s.shellAt p = .ok d)
    (hc : s.commandAt d.command = .ok c) (hid : req.commandId = some c.commandId)
    (hs : (if req.endOfStream then markStreamDone req.streamName c.outboundStreams 0
      d.outboundStreamNames.length else pure c.outboundStreams) = .ok streams)
    (hr : inboundResult P g d.isCompressed req = .ok r) :
    shellInvokeSend P s context name req g =
      .ok (s.setCommand d.command { c with receiveContext := 0, outboundStreams := streams },
        sendPosts context c.receiveContext c.commandId req r) := by
  simp only [shellInvokeSend, hf, hp, hid, hd, hc, ok_bind, if_false, ne_eq, not_true_eq_false]
  split
  · rw [if_pos ‹_›] at hs
    rw [hs, ok_bind, hr]
    rfl
  · rw [if_neg ‹_›] at hs
    cases hs
    rw [pure_bind, hr]
    rfl

/-- `Shell_Invoke_Signal` on the command of the shell `FindShell` returns, naming that command
if it names one: the command is freed, and the posts are those answering the parked Receive,
then the signal's own. -/
theorem shellInvokeSignal_found {p : Addr} {d : ShellData} {c : CommandData}
    {commandId : Option (List Char)} {receivePost signalPost : MIResult}
    (hf : findShell s name = .ok p) (hp : p ≠ 0) (hd : s.shellAt p = .ok d)
    (hc : s.commandAt d.command = .ok c) (hid : ∀ cid ∈ commandId, cid = c.commandId) :
    shellInvokeSignal s context name commandId receivePost signalPost =
      (signalReceivePosts commandId c receivePost).map fun posts =>
        ((s.erase d.command).setShell p { d with command := 0 },
          posts ++ [.inst context .signal, .result context signalPost]) := by
  cases commandId with
  | none =>
    simp only [shellInvokeSignal, hf, hp, hd, hc, ok_bind, if_false]
    cases signalReceivePosts none c receivePost <;> rfl
  | some cid =>
    simp only [shellInvokeSignal, hf, hp, hd, hc, ok_bind, if_false, hid cid rfl, ne_eq,
      not_true_eq_false]
    cases signalReceivePosts (some c.commandId) c receivePost <;> rfl

/-- `Shell_DeleteInstance` when the walk finds no shell with the ID. -/
theorem shellDeleteInstance_notFound {previous : Addr}
    (hf : findShellLink s name (s.allocs.length + 1) 0 s.shellList = .ok (previous, 0)) :
    shellDeleteInstance s context name = .ok (s, [.result context .notFound]) := by
  rw [shellDeleteInstance, hf]

/-- `Shell_DeleteInstance` when the walk finds the shell at `p`, behind `previous`. -/
theorem shellDeleteInstance_found {previous p : Addr} {d : ShellData} {s₁ : State}
    (hf : findShellLink s name (s.allocs.length + 1) 0 s.shellList = .ok (previous, p))
    (hp : p ≠ 0) (hd : s.shellAt p = .ok d) (hr : s.relink previous d.nextShell = .ok s₁) :
    shellDeleteInstance s context name = .ok (s₁.erase p, [.result context .ok]) := by
  rw [shellDeleteInstance, hf]
  split
  · contradiction
  · rename_i h; cases h; exact absurd rfl hp
  · rename_i h; cases h; simp only [hd, hr]

/-- `Shell_DeleteInstance` of the shell at the head of the list. -/
theorem shellDeleteInstance_head {p : Addr} {d : ShellData} (hl : s.shellList = p) (hp : p ≠ 0)
    (hd : s.heap p = some (.shell d)) :
    shellDeleteInstance s context d.shellId =
      .ok ({ s with shellList := d.nextShell }.erase p, [.result context .ok]) := by
  refine shellDeleteInstance_found ?_ hp (State.shellAt_eq_ok.mpr ⟨hp, hd⟩) (if_pos rfl)
  rw [hl, findShellLink, if_neg hp, State.shellAt_eq_ok.mpr ⟨hp, hd⟩]
  exact if_pos rfl

/-- `WSManPluginReportContext` rejecting a shell whose `isShell` byte reads non-zero. -/
theorem wsmanPluginReportContext_reject {request : Addr} {d : ShellData} {handle : Handle}
    {post : MIResult} (hr : request ≠ 0) (hd : s.heap request = some (.shell d))
    (hb : isShellByte d ≠ 0) (hpost : post ≠ .ok) :
    wsmanPluginReportContext s request handle post =
      .ok ({ { s with requests := s.requests.erase request }.erase request with
        shellList := d.nextShell },
        [.inst d.requestContext (.shell d.shellId), .result d.requestContext post]) := by
  simp only [wsmanPluginReportContext, State.cell, hr, hd, ↓reduceIte, ne_eq, hb, hpost,
    not_false_eq_true]

end ShellProvider

import ShellProvider.Replies

/-!
# The list holds the live shells

What the shell list is for: every live shell is on it, once, so that `FindShell` reaches it by
its ID. `Listed s l` says the list of `s` is `l` and `l` holds every live shell.

* Creating a shell pushes it (`Listed.push`); deleting one unlinks the first shell with the ID
  and cannot fault (`Listed.delete`); the other calls keep every shell with its link
  (`SameLinks`), so they keep the list.
* A rejected report unwinds its shell as if it were the head (`Listed.unlinkHead`), which is
  right only when it is. Runs in which every rejection is of the head keep a list of all live
  shells (`HeadReachable.listed`). There `Shell_GetInstance` finds every live shell by its ID
  (`shellGetInstance_live`) and no other ID (`absentId_notFound`), `Shell_DeleteInstance`
  unlinks exactly the shell it names (`shellDeleteInstance_live`), and the pointer walk of
  `Shell_EnumerateInstances` is the walk down the list (`enumerateFrom_chain`), so it posts
  every live shell once (`shellEnumerateInstances_live`).
-/

namespace ShellProvider

variable {P : Platform}

/-- The list reached from `shellList` is `l`, and `l` holds every live shell. -/
def Listed (s : State) (l : List Addr) : Prop :=
  ShellChain s s.shellList l ∧ ∀ a, a ∈ l ↔ ∃ d, s.heap a = some (.shell d)

/-- `s'` has a shell exactly where `s` has one, each with the same ID and link. -/
structure SameLinks (s s' : State) : Prop where
  keeps : KeepsShells s s'
  back : ∀ a d', s'.heap a = some (.shell d') → ∃ d, s.heap a = some (.shell d)

section SameLinks

variable {s s₁ : State} {p : Addr}

theorem SameLinks.refl (s : State) : SameLinks s s :=
  ⟨fun _ d h => ⟨d, h, rfl, rfl⟩, fun _ d h => ⟨d, h⟩⟩

theorem SameLinks.of_heap_eq {s₂ : State} (h : SameLinks s s₁) (hh : s₂.heap = s₁.heap) :
    SameLinks s s₂ :=
  ⟨fun a d hd => hh ▸ h.keeps a d hd, fun a d hd => h.back a d (hh ▸ hd)⟩

theorem SameLinks.issue {q : Addr} (h : SameLinks s s₁) : SameLinks s (s₁.issue q) :=
  h.of_heap_eq rfl

theorem SameLinks.setShell {d d' : ShellData} (h : SameLinks s s₁)
    (hp : s.heap p = some (.shell d)) (hid : d'.shellId = d.shellId)
    (hn : d'.nextShell = d.nextShell) : SameLinks s (s₁.setShell p d') := by
  refine ⟨fun a e he => ?_, fun a e he => ?_⟩
  · by_cases ha : a = p
    · subst ha; rw [hp] at he; cases he; exact ⟨d', by simp, hid, hn⟩
    · simpa [ha] using h.keeps a e he
  · by_cases ha : a = p
    · exact ⟨d, ha ▸ hp⟩
    · exact h.back a e (by simpa [ha] using he)

/-- A write at an address where neither state has a shell. -/
theorem SameLinks.away {s₂ : State} (h : SameLinks s s₁) (hs : ∀ d, s.heap p ≠ some (.shell d))
    (hs₂ : ∀ d, s₂.heap p ≠ some (.shell d)) (hk : ∀ a, a ≠ p → s₂.heap a = s₁.heap a) :
    SameLinks s s₂ := by
  refine ⟨fun a e he => ?_, fun a e he => ?_⟩
  · have ha : a ≠ p := by rintro rfl; exact hs e he
    exact hk a ha ▸ h.keeps a e he
  · have ha : a ≠ p := by rintro rfl; exact hs₂ e he
    exact h.back a e (hk a ha ▸ he)

theorem SameLinks.setCommand {c c' : CommandData} (h : SameLinks s s₁)
    (hp : s.heap p = some (.command c)) : SameLinks s (s₁.setCommand p c') :=
  h.away (p := p) (by simp [hp]) (by simp) fun a ha => by simp [ha]

theorem SameLinks.eraseCommand {c : CommandData} (h : SameLinks s s₁)
    (hp : s.heap p = some (.command c)) : SameLinks s (s₁.erase p) :=
  h.away (p := p) (by simp [hp]) (by simp) fun a ha => by simp [ha]

theorem SameLinks.allocCommand {c : CommandData} (h : SameLinks s s₁) (hp : s.heap p = none) :
    SameLinks s (s₁.alloc p (.command c)) :=
  h.away (p := p) (by simp [hp]) (by simp) fun a ha => by simp [ha]

end SameLinks

section Listed

variable {s : State} {l : List Addr}

theorem Listed.of_sameLinks {s' : State} (hl : Listed s l) (h : SameLinks s s')
    (hsl : s'.shellList = s.shellList) : Listed s' l := by
  refine ⟨hsl ▸ shellChain_iff_seg.mpr ((shellChain_iff_seg.mp hl.1).keep fun a _ d hd => ?_),
    fun a => (hl.2 a).trans ⟨fun ⟨d, hd⟩ => ?_, fun ⟨d', hd'⟩ => h.back a d' hd'⟩⟩
  · obtain ⟨d', h₁, -, h₂⟩ := h.keeps a d hd
    exact ⟨d', h₁, h₂⟩
  · obtain ⟨d', h₁, -⟩ := h.keeps a d hd
    exact ⟨d', h₁⟩

/-- A listed shell lives, so it is not where `calloc` just found room. -/
theorem Listed.ne_of_free {a c : Addr} (hl : Listed s l) (ha : a ∈ l) (hc : s.heap c = none) :
    a ≠ c := by
  rintro rfl
  obtain ⟨d, hd⟩ := (hl.2 a).mp ha
  rw [hc] at hd
  cases hd

/-- **`Shell_CreateInstance` pushes the new shell on the list.** -/
theorem Listed.push {c : Addr} {d : ShellData} (hl : Listed s l) (hc : c ≠ 0)
    (hfree : s.heap c = none) (hn : d.nextShell = s.shellList) :
    Listed { (s.alloc c (.shell d)).issue c with shellList := c } (c :: l) := by
  refine ⟨.cons hc (by simp) (hn ▸ shellChain_iff_seg.mpr
      ((shellChain_iff_seg.mp hl.1).keep fun a ha e he => ⟨e, ?_, rfl⟩)), fun a => ?_⟩
  · by_cases hac : a = c
    · subst hac; simp
    · simp [hac, hl.2 a]
  · simp [hl.ne_of_free ha hfree, he]

/-- **Unwinding the head of the list leaves the rest listed.** -/
theorem Listed.unlinkHead {r : Addr} {d : ShellData} (hl : Listed s l) (rs : List Addr)
    (hr : s.shellList = r) (hd : s.heap r = some (.shell d)) :
    ∃ l', l = r :: l' ∧
      Listed { { s with requests := rs }.erase r with shellList := d.nextShell } l' := by
  have hchain := hl.1
  rw [hr] at hchain
  cases hchain with
  | nil => exact absurd ((hl.2 0).mpr ⟨d, hd⟩) (List.not_mem_nil _)
  | @cons _ d' l' hr0 hd' hrest =>
    rw [hd] at hd'
    cases hd'
    have hnd := List.nodup_cons.mp (hr ▸ hl.1).nodup
    refine ⟨l', rfl, shellChain_iff_seg.mpr ((shellChain_iff_seg.mp hrest).keep
      fun a ha e he => ⟨e, ?_, rfl⟩), fun a => ?_⟩
    · have : a ≠ r := by rintro rfl; exact hnd.1 ha
      simp [this, he]
    · by_cases har : a = r
      · subst har; simp [hnd.1]
      · simp [har, ← hl.2 a, hr]

/-- The shells of a listed state, one taken out: what the list holds less that shell. -/
theorem Listed.mem_erase {s' : State} {p : Addr} (hl : Listed s l)
    (h : ∀ a, (∃ d, s'.heap a = some (.shell d)) ↔ a ≠ p ∧ ∃ d, s.heap a = some (.shell d)) :
    ∀ a, a ∈ l.erase p ↔ ∃ d, s'.heap a = some (.shell d) := fun a => by
  rw [hl.1.nodup.mem_erase_iff, h, hl.2]

/-- **Relinking the shell before `p` past it, and freeing `p`, leaves the rest listed.** -/
theorem Listed.unlinkAfter {l₀ l₂ : List Addr} {r p : Addr} {dr dp : ShellData}
    (hl : Listed s (l₀ ++ r :: p :: l₂)) (hdr : s.heap r = some (.shell dr))
    (hdp : s.heap p = some (.shell dp)) :
    Listed ((s.setShell r { dr with nextShell := dp.nextShell }).erase p)
      ((l₀ ++ r :: p :: l₂).erase p) := by
  have hnd := hl.1.nodup
  simp only [List.nodup_append, List.nodup_cons, List.mem_cons, not_or,
    List.disjoint_cons_right] at hnd
  obtain ⟨-, ⟨⟨hrp, hr₂⟩, hp₂, -⟩, hr₀, hp₀, -⟩ := hnd
  obtain ⟨q, hs₀, hq⟩ := ShellSeg.split (shellChain_iff_seg.mp hl.1)
  obtain ⟨hqr, hr0, _, hdr', hq⟩ := ShellSeg.cons_iff.mp hq
  rw [hqr] at hs₀
  rw [hdr] at hdr'
  cases hdr'
  obtain ⟨-, -, _, hdp', hrest⟩ := ShellSeg.cons_iff.mp hq
  rw [hdp] at hdp'
  cases hdp'
  refine ⟨?_, hl.mem_erase fun a => ?_⟩
  · rw [List.erase_append_right _ (by simp [hp₀, Ne.symm hrp]), List.erase_cons_tail (by simpa using hrp),
      List.erase_cons_head]
    refine shellChain_iff_seg.mpr ((hs₀.frame fun a ha => ?_).append
      (.cons (d := { dr with nextShell := dp.nextShell }) hr0 (by simp [hrp])
        (hrest.frame fun a ha => ?_)))
    · simp [ne_of_mem_of_not_mem ha hp₀, ne_of_mem_of_not_mem ha hr₀]
    · simp [ne_of_mem_of_not_mem ha hp₂, ne_of_mem_of_not_mem ha hr₂]
  · by_cases hap : a = p
    · simp [hap]
    by_cases har : a = r
    · simp [har, hrp, hdr]
    · simp [hap, har]

/-- **`Shell_DeleteInstance` on a listed state cannot fault.** It answers `NotFound` when no
listed shell carries the ID, and otherwise unlinks the first that does, and that shell alone. -/
theorem Listed.delete (hl : Listed s l) (ha : Allocated s) (context : Ctx) (name : List Char) :
    ∃ s', shellDeleteInstance s context name =
        .ok (s', [.result context (if firstWithId s name l = 0 then .notFound else .ok)]) ∧
      Listed s' (l.erase (firstWithId s name l)) := by
  obtain ⟨r, hf, hsplit⟩ := findShellLink_chain name hl.1 0
    (Nat.lt_succ_of_le (hl.1.length_le ha))
  by_cases h0 : firstWithId s name l = 0
  · rw [h0] at hf ⊢
    refine ⟨s, shellDeleteInstance_notFound hf, ?_⟩
    rwa [List.erase_of_not_mem fun hm => ((shellChain_iff_seg.mp hl.1).live hm).1 rfl]
  rw [if_neg h0]
  generalize firstWithId s name l = p at h0 hf hsplit ⊢
  obtain ⟨l₁, l₂, rfl, hseg, hprev⟩ := hsplit h0
  obtain ⟨q, -, hq⟩ := ShellSeg.split (shellChain_iff_seg.mp hl.1)
  obtain ⟨-, -, dp, hdp, -⟩ := ShellSeg.cons_iff.mp hq
  have hp := State.shellAt_eq_ok.mpr ⟨h0, hdp⟩
  rcases hprev with ⟨rfl, rfl⟩ | ⟨l₀, rfl⟩
  · -- the shell is the head: the list head moves past it
    cases hseg
    obtain ⟨l', hl', hL⟩ := hl.unlinkHead s.requests rfl hdp
    cases (List.cons.inj hl').2
    refine ⟨_, shellDeleteInstance_found hf h0 hp (if_pos rfl), ?_⟩
    rwa [List.nil_append, List.erase_cons_head]
  · -- the shell behind it is relinked past it
    obtain ⟨q, -, hr⟩ := ShellSeg.split hseg
    obtain ⟨-, hr0, dr, hdr, -⟩ := ShellSeg.cons_iff.mp hr
    have hrel : s.relink r dp.nextShell = .ok (s.setShell r { dr with nextShell := dp.nextShell }) := by
      rw [State.relink, if_neg hr0, State.shellAt_eq_ok.mpr ⟨hr0, hdr⟩]
    refine ⟨_, shellDeleteInstance_found hf h0 hp hrel, ?_⟩
    rw [List.append_assoc, List.singleton_append] at hl ⊢
    exact hl.unlinkAfter hdr hdp

end Listed

/-! ## Every step -/

/-- A report that rejects a shell rejects the one at the head of the list. -/
def Event.RejectsHead (s : State) : Event → Prop
  | .reportContext request _ post => post ≠ .ok → s.shellList = request
  | _ => True

section Step

variable {s s' : State} {l : List Addr} {e : Event} {posts : List Post}

/-- **One event keeps a list of the live shells**, unless it rejects a shell behind the head. -/
theorem Listed.step (hl : Listed s l) (ha : Allocated s) (hv : e.Valid P s)
    (hr : e.RejectsHead s) (h : step P s e = .ok (s', posts)) : ∃ l', Listed s' l' := by
  cases e with
  | createInstance =>
    obtain ⟨hh, hsl, -⟩ | ⟨_, _, -, hc, -, rfl, -⟩ := shellCreateInstance_eq_ok h
    · exact ⟨l, hl.of_sameLinks ((SameLinks.refl s).of_heap_eq hh) hsl⟩
    · exact ⟨_, hl.push hc (hv.createInstance_free hc) rfl⟩
  | deleteInstance context name =>
    obtain ⟨s₁, h₁, hL⟩ := hl.delete ha context name
    rw [step, h₁] at h
    cases h
    exact ⟨_, hL⟩
  | getInstance => exact ⟨l, shellGetInstance_eq_ok h ▸ hl⟩
  | enumerateInstances => exact ⟨l, shellEnumerateInstances_eq_ok h ▸ hl⟩
  | modifyInstance | invokeConnect => cases h; exact ⟨l, hl⟩
  | invokeCommand =>
    obtain ⟨p, d, hf, -, hd, ⟨c, -, hc, rfl, -⟩ | ⟨-, -, -, rfl, -⟩ | ⟨-, hc, -, rfl, -⟩⟩ :=
      shellInvokeCommand_eq_ok h
    · exact ⟨l, hl.of_sameLinks (.setShell (.eraseCommand (.refl s)
        (State.commandAt_eq_ok.mp hc).2) (State.shellAt_eq_ok.mp hd).2 rfl rfl) rfl⟩
    · exact ⟨l, hl.of_sameLinks (.of_heap_eq (.refl s) rfl) rfl⟩
    · exact ⟨l, hl.of_sameLinks (.issue (.setShell (.allocCommand (.refl s)
        (hv.invokeCommand_free hc hf hd)) (State.shellAt_eq_ok.mp hd).2 rfl rfl)) rfl⟩
  | invokeSend =>
    obtain ⟨rfl, -⟩ | ⟨_, _, _, _, _, -, -, -, hc, -, -, -, rfl, -⟩ := shellInvokeSend_eq_ok h
    · exact ⟨l, hl⟩
    · exact ⟨l, hl.of_sameLinks (.setCommand (.refl s) (State.commandAt_eq_ok.mp hc).2) rfl⟩
  | invokeReceive =>
    obtain ⟨rfl, -⟩ | ⟨_, _, _, -, -, -, hc, -, -, rfl, -⟩ := shellInvokeReceive_eq_ok h
    · exact ⟨l, hl⟩
    · exact ⟨l, hl.of_sameLinks (.setCommand (.refl s) (State.commandAt_eq_ok.mp hc).2) rfl⟩
  | invokeSignal =>
    obtain ⟨_, _, _, -, -, hd, hc, rfl, -⟩ := shellInvokeSignal_eq_ok h
    exact ⟨l, hl.of_sameLinks (.setShell (.eraseCommand (.refl s)
      (State.commandAt_eq_ok.mp hc).2) (State.shellAt_eq_ok.mp hd).2 rfl rfl) rfl⟩
  | reportContext =>
    obtain ⟨-, ⟨d, hd, -, -, ⟨-, rfl⟩ | ⟨hpost, rfl⟩⟩ | ⟨c, hc, -, rfl, -⟩⟩ :=
      wsmanPluginReportContext_eq_ok h
    · exact ⟨l, hl.of_sameLinks (.setShell (.of_heap_eq (.refl s) rfl) hd rfl rfl) rfl⟩
    · obtain ⟨l', -, hL⟩ := hl.unlinkHead _ (hr hpost) hd
      exact ⟨l', hL⟩
    · exact ⟨l, hl.of_sameLinks (.setCommand (.of_heap_eq (.refl s) rfl) hc) rfl⟩

end Step

/-- The states reached by runs in which every rejected report is of the newest shell. -/
inductive HeadReachable (P : Platform) : State → Prop
  | init : HeadReachable P State.init
  | step {s s' : State} {e : Event} {posts : List Post} :
      HeadReachable P s → e.Valid P s → e.RejectsHead s → step P s e = .ok (s', posts) →
      HeadReachable P s'

section HeadReachable

variable {s : State} {a : Addr} {d : ShellData}

theorem HeadReachable.reachable (hs : HeadReachable P s) : Reachable P s := by
  induction hs with
  | init => exact .init
  | step _ hv _ h ih => exact .step ih hv h

/-- **Along such a run the list holds every live shell, once.** -/
theorem HeadReachable.listed (hs : HeadReachable P s) : ∃ l, Listed s l := by
  induction hs with
  | init => exact ⟨[], .nil, fun _ => by simp [State.init]⟩
  | step hs hv hr h ih =>
    obtain ⟨l, hl⟩ := ih
    exact hl.step hs.reachable.allocated hv hr h

theorem HeadReachable.pushShell {names : List (List Char)} {p : Addr} (hr : HeadReachable P s)
    (hp0 : p ≠ 0) (hroom : s.Room P p P.shellBlock) (hs : ∀ n ∈ names, ' ' ∉ n)
    (hl : names.getLast? ≠ some []) : HeadReachable P (pushShell P s names p) :=
  .step hr (createAt_valid hroom) trivial (step_createAt hp0 hs hl)

theorem headReachable_oneShell : HeadReachable P (oneShell P) :=
  .pushShell .init (by decide) room_first (by decide) (by decide)

/-- The first listed shell with a live shell's ID is that shell. -/
theorem Listed.firstWithId_live {l : List Addr} (hl : Listed s l) (hi : Inv P s)
    (hd : s.heap a = some (.shell d)) : firstWithId s d.shellId l = a :=
  firstWithId_eq ((hl.2 a).mpr ⟨d, hd⟩) (idAt_eq hd) fun _ _ hb =>
    let ⟨_, he, hid⟩ := idAt_eq_some.mp hb
    hi.eq_of_shellId hd he hid

/-- **In such a run `Shell_GetInstance` finds every live shell by its ID**: `FindShell` returns
that shell, and Get posts its instance with `MI_RESULT_OK`. -/
theorem shellGetInstance_live (hs : HeadReachable P s) (hd : s.heap a = some (.shell d))
    (context : Ctx) :
    findShell s d.shellId = .ok a ∧
      shellGetInstance s context d.shellId =
        .ok (s, [.inst context (.shell d.shellId), .result context .ok]) := by
  obtain ⟨l, hl⟩ := hs.listed
  have hf := findShell_chain d.shellId hl.1 hs.reachable.allocated
  rw [hl.firstWithId_live hs.reachable.inv hd] at hf
  have ha0 := ((shellChain_iff_seg.mp hl.1).live ((hl.2 a).mpr ⟨d, hd⟩)).1
  exact ⟨hf, shellGetInstance_found hf ha0 (State.shellAt_eq_ok.mpr ⟨ha0, hd⟩)⟩

theorem getInstance_oneShell :
    findShell (oneShell Platform.sample) (shell16 Platform.sample).shellId = .ok 16 ∧
      shellGetInstance (oneShell Platform.sample) 3 (shell16 Platform.sample).shellId =
        .ok (oneShell Platform.sample, [.inst 3 (.shell (shell16 Platform.sample).shellId),
          .result 3 .ok]) :=
  shellGetInstance_live (a := 16) headReachable_oneShell rfl 3

/-- **In such a run `Shell_DeleteInstance` of a live shell's ID unlinks that shell alone**: it
answers `MI_RESULT_OK`, and the list it leaves is the list before it less that shell, holding
every other live shell. -/
theorem shellDeleteInstance_live (hs : HeadReachable P s) (hd : s.heap a = some (.shell d))
    (context : Ctx) : ∃ s', shellDeleteInstance s context d.shellId =
      .ok (s', [.result context .ok]) ∧ ∀ l, Listed s l → Listed s' (l.erase a) := by
  obtain ⟨l, hl⟩ := hs.listed
  obtain ⟨s', h, hL⟩ := hl.delete hs.reachable.allocated context d.shellId
  rw [hl.firstWithId_live hs.reachable.inv hd] at h hL
  rw [if_neg ((shellChain_iff_seg.mp hl.1).live ((hl.2 a).mpr ⟨d, hd⟩)).1] at h
  exact ⟨s', h, fun l' hl' => hl.1.unique hl'.1 ▸ hL⟩

/-- `oneShell` with a second shell at `0x200000000` in front of it, both declaring `stdout`. -/
def twoShells (P : Platform) : State := pushShell P (oneShell P) ["stdout".toList] 0x200000000

theorem headReachable_twoShells : HeadReachable P (twoShells P) :=
  .pushShell headReachable_oneShell (by decide)
    (room_firstShell le_rfl (by have := P.shellBlock_le; omega)) (by decide) (by decide)

/-- Deleting the older of two shells relinks the newer past it: the list goes from
`[0x200000000, 16]` to `[0x200000000]`. -/
theorem deleteInstance_twoShells : ∃ s', shellDeleteInstance (twoShells Platform.sample) 3
    (shell16 Platform.sample).shellId = .ok (s', [.result 3 .ok]) ∧
      ∀ l, Listed (twoShells Platform.sample) l → Listed s' (l.erase 16) :=
  shellDeleteInstance_live (a := 16) headReachable_twoShells rfl 3

/-- **In such a run an ID that no live shell carries is not found**: `Shell_GetInstance` and
`Shell_DeleteInstance` answer `NotFound` and change nothing. -/
theorem absentId_notFound {name : List Char} (hs : HeadReachable P s)
    (habs : ∀ a d, s.heap a = some (.shell d) → d.shellId ≠ name) (context : Ctx) :
    shellGetInstance s context name = .ok (s, [.result context .notFound]) ∧
      shellDeleteInstance s context name = .ok (s, [.result context .notFound]) := by
  obtain ⟨l, hl⟩ := hs.listed
  have h0 : firstWithId s name l = 0 := firstWithId_eq_zero fun a _ h =>
    let ⟨d, hd, hid⟩ := idAt_eq_some.mp h
    habs a d hd hid
  have ha := hs.reachable.allocated
  refine ⟨shellGetInstance_notFound ?_, ?_⟩
  · rw [findShell_chain name hl.1 ha, h0]
  · obtain ⟨r, hf, -⟩ := findShellLink_chain name hl.1 0 (Nat.lt_succ_of_le (hl.1.length_le ha))
    rw [h0] at hf
    exact shellDeleteInstance_notFound hf

theorem absentId_oneShell :
    shellGetInstance (oneShell Platform.sample) 3 (Platform.sample.shellIdAt 32) =
        .ok (oneShell Platform.sample, [.result 3 .notFound]) ∧
      shellDeleteInstance (oneShell Platform.sample) 3 (Platform.sample.shellIdAt 32) =
        .ok (oneShell Platform.sample, [.result 3 .notFound]) :=
  absentId_notFound headReachable_oneShell (fun a d hd hid => by
    by_cases ha : a = 16
    · subst ha
      cases hd
      exact absurd (formatId_injective (v := 16 + 256) (w := 32 + 256) (by decide) (by decide) hid)
        (by decide)
    · simp [oneShell, pushShell, State.init, ha] at hd) 3

/-- The posts of `Shell_EnumerateInstances` read off the list of shells: each shell's instance,
posted as `i`-th, until a post fails, whose result ends the walk; `MI_RESULT_OK` at the end. -/
def enumeratePosts (P : Platform) (context : Ctx) (post : ℕ → MIResult) :
    ℕ → List Addr → List Post
  | _, [] => [.result context .ok]
  | i, a :: l => .inst context (.shell (P.shellIdAt a)) ::
      if post i = .ok then enumeratePosts P context post (i + 1) l else [.result context (post i)]

/-- **The loop of `Shell_EnumerateInstances` is the walk down the list**: along a list of live
shells its pointer walk posts what `enumeratePosts` reads off the list. -/
theorem enumerateFrom_chain {p : Addr} {l : List Addr} {context : Ctx} {post : ℕ → MIResult}
    (hi : Inv P s) (h : ShellChain s p l) :
    ∀ {fuel i : ℕ}, l.length < fuel →
      enumerateFrom s context post fuel i p = .ok (enumeratePosts P context post i l) := by
  induction h with
  | nil => intro fuel i hf; cases fuel with
    | zero => cases hf
    | succ => rfl
  | cons hp hd _ ih => intro fuel i hf; cases fuel with
    | zero => cases hf
    | succ fuel =>
      rw [enumerateFrom, if_neg hp, State.shellAt_eq_ok.mpr ⟨hp, hd⟩]
      dsimp only
      rw [enumeratePosts, (hi.shell hd).1]
      split_ifs
      · rw [ih (Nat.lt_of_succ_lt_succ hf)]
      · rfl

example : enumeratePosts Platform.sample 3 (fun i => if i = 1 then .failed else .ok) 0
      [0x400000000, 0x200000000, 16] =
    [.inst 3 (.shell (Platform.sample.shellIdAt 0x400000000)),
      .inst 3 (.shell (Platform.sample.shellIdAt 0x200000000)), .result 3 .failed] := rfl

/-- Every post accepted, the walk posts each shell's instance, then `MI_RESULT_OK`. -/
theorem enumeratePosts_ok {context : Ctx} {post : ℕ → MIResult} (hpost : ∀ j, post j = .ok) :
    ∀ (i : ℕ) (l : List Addr), enumeratePosts P context post i l =
      l.map (fun a => .inst context (.shell (P.shellIdAt a))) ++ [.result context .ok]
  | _, [] => rfl
  | i, a :: l => by rw [enumeratePosts, if_pos (hpost i), enumeratePosts_ok hpost]; rfl

/-- **In such a run `Shell_EnumerateInstances`, every post accepted, posts the ID of every live
shell once**, in the order of the list. -/
theorem shellEnumerateInstances_live {post : ℕ → MIResult} (hs : HeadReachable P s)
    (hpost : ∀ j, post j = .ok) (context : Ctx) : ∃ l, Listed s l ∧
      shellEnumerateInstances s context post =
        .ok (s, l.map (fun a => .inst context (.shell (P.shellIdAt a))) ++ [.result context .ok]) := by
  obtain ⟨l, hl⟩ := hs.listed
  refine ⟨l, hl, ?_⟩
  rw [shellEnumerateInstances, enumerateFrom_chain hs.reachable.inv hl.1
    (Nat.lt_succ_of_le (hl.1.length_le hs.reachable.allocated)), enumeratePosts_ok hpost]

theorem enumerateInstances_oneShell : ∃ l, Listed (oneShell Platform.sample) l ∧
    shellEnumerateInstances (oneShell Platform.sample) 3 (fun _ => .ok) = .ok (oneShell Platform.sample,
      l.map (fun a => .inst 3 (.shell (Platform.sample.shellIdAt a))) ++ [.result 3 .ok]) :=
  shellEnumerateInstances_live headReachable_oneShell (fun _ => rfl) 3

end HeadReachable

end ShellProvider

import ShellProvider.State
import Mathlib.Data.List.Perm.Basic
import Mathlib.Data.List.Nodup

/-!
# The shell list

`Shell_Self.shellList` threads the live shells through their `nextShell` links. A stretch of
that list is a `ShellSeg`; a list that ends at `NULL` is a `ShellChain`.

* Segments split and join at any shell they pass (`ShellSeg.split`, `ShellSeg.append`); a
  list ending at `NULL` is determined by its head and passes no shell twice
  (`ShellChain.unique`, `ShellChain.nodup`).
* A state that keeps the link of every shell a segment passes keeps the segment
  (`ShellSeg.keep`).
* Along a list `l`, `FindShell` returns the first shell of `l` carrying the ID, or `NULL`
  (`findShellFrom_chain`), and the search loop of `Shell_DeleteInstance` returns that shell
  with the one before it (`findShellLink_chain`), once they have more iterations than `l`
  has shells.
* Every live cell sits at an address `calloc` returned (`Allocated`), so a list of live shells
  is no longer than `allocs` and the bound of `FindShell` never cuts a walk short
  (`findShell_chain`).
-/

namespace ShellProvider

/-- `ShellSeg s p l q`: from `p`, the `nextShell` links pass the live shells `l` in order and
arrive at `q`. -/
inductive ShellSeg (s : State) : Addr → List Addr → Addr → Prop
  | nil (p : Addr) : ShellSeg s p [] p
  | cons {p q : Addr} {d : ShellData} {l : List Addr} : p ≠ 0 → s.heap p = some (.shell d) →
      ShellSeg s d.nextShell l q → ShellSeg s p (p :: l) q

/-- The ID of the shell at `a`, when a shell lives there. -/
def State.idAt (s : State) (a : Addr) : Option (List Char) :=
  match s.heap a with
  | some (.shell d) => some d.shellId
  | _ => none

/-- The first shell of `l` carrying `shellId`, or `NULL`. -/
def firstWithId (s : State) (shellId : List Char) : List Addr → Addr
  | [] => 0
  | a :: l => if s.idAt a = some shellId then a else firstWithId s shellId l

/-- Every live cell sits at an address `calloc` returned. -/
def Allocated (s : State) : Prop := ∀ a c, s.heap a = some c → a ∈ s.allocs

variable {s s' : State} {p q : Addr} {l : List Addr}

/-! ## Segments -/

theorem ShellSeg.cons_iff {a : Addr} :
    ShellSeg s p (a :: l) q ↔ p = a ∧ a ≠ 0 ∧ ∃ d, s.heap a = some (.shell d) ∧ ShellSeg s d.nextShell l q := by
  constructor
  · rintro (_ | ⟨hp, hd, h⟩)
    exact ⟨rfl, hp, _, hd, h⟩
  · rintro ⟨rfl, hp, d, hd, h⟩
    exact .cons hp hd h

theorem ShellSeg.append {r : Addr} {l₂ : List Addr} (h₁ : ShellSeg s p l q)
    (h₂ : ShellSeg s q l₂ r) : ShellSeg s p (l ++ l₂) r := by
  induction h₁ with
  | nil => exact h₂
  | cons hp hd _ ih => exact .cons hp hd (ih h₂)

theorem ShellSeg.split {r : Addr} {l₂ : List Addr} :
    ∀ {p : Addr} {l : List Addr}, ShellSeg s p (l ++ l₂) r → ∃ q, ShellSeg s p l q ∧ ShellSeg s q l₂ r
  | p, [], h => ⟨p, .nil p, h⟩
  | _, _ :: _, .cons hp hd h =>
    let ⟨q, h₁, h₂⟩ := ShellSeg.split h
    ⟨q, .cons hp hd h₁, h₂⟩

theorem shellChain_iff_seg : ShellChain s p l ↔ ShellSeg s p l 0 := by
  constructor
  · intro h
    induction h with
    | nil => exact .nil 0
    | cons hp hd _ ih => exact .cons hp hd ih
  · intro h
    generalize hq : (0 : Addr) = q at h
    induction h with
    | nil => subst hq; exact .nil
    | cons hp hd _ ih => exact .cons hp hd (ih hq)

/-- The shells a segment passes are live shells. -/
theorem ShellSeg.live {a : Addr} (h : ShellSeg s p l q) (ha : a ∈ l) :
    a ≠ 0 ∧ ∃ d, s.heap a = some (.shell d) := by
  induction h with
  | nil => cases ha
  | cons hp hd _ ih =>
    rcases List.mem_cons.mp ha with rfl | ha
    · exact ⟨hp, _, hd⟩
    · exact ih ha

/-- A state that keeps the link of every shell a segment passes keeps the segment. -/
theorem ShellSeg.keep (h : ShellSeg s p l q)
    (hk : ∀ a ∈ l, ∀ d, s.heap a = some (.shell d) →
      ∃ d', s'.heap a = some (.shell d') ∧ d'.nextShell = d.nextShell) :
    ShellSeg s' p l q := by
  induction h with
  | nil => exact .nil _
  | @cons a _ d _ hp hd _ ih =>
    obtain ⟨d', hd', hnext⟩ := hk a (List.mem_cons_self _ _) d hd
    exact .cons hp hd' (hnext ▸ ih fun b hb => hk b (List.mem_cons_of_mem _ hb))

/-! ## Lists ending at `NULL` -/

/-- A segment survives any change away from its shells. -/
theorem ShellSeg.frame (h : ShellSeg s p l q) (hk : ∀ a ∈ l, s'.heap a = s.heap a) :
    ShellSeg s' p l q :=
  h.keep fun a ha d hd => ⟨d, (hk a ha).trans hd, rfl⟩

theorem ShellChain.unique {l' : List Addr} (h : ShellChain s p l) (h' : ShellChain s p l') :
    l = l' := by
  induction h generalizing l' with
  | nil => cases h' with
    | nil => rfl
    | cons hp _ _ => exact absurd rfl hp
  | cons hp hd _ ih => cases h' with
    | nil => exact absurd rfl hp
    | cons _ hd' h' =>
      rw [hd] at hd'
      cases hd'
      rw [ih h']

/-- A list ending at `NULL` passes no shell twice. -/
theorem ShellChain.nodup (h : ShellChain s p l) : l.Nodup := by
  induction h with
  | nil => exact List.nodup_nil
  | @cons p d l hp hd hl ih =>
    refine List.nodup_cons.mpr ⟨fun hmem => ?_, ih⟩
    obtain ⟨l₁, l₂, rfl⟩ := List.append_of_mem hmem
    obtain ⟨r, -, h₂⟩ := (shellChain_iff_seg.mp hl).split
    cases h₂ with
    | cons _ hd' h₂ =>
      rw [hd] at hd'
      cases hd'
      have := ShellChain.unique hl (shellChain_iff_seg.mpr h₂)
      have hlen := congrArg List.length this
      simp only [List.length_append, List.length_cons] at hlen
      omega

/-- A list of live shells is no longer than the list of addresses `calloc` returned. -/
theorem ShellChain.length_le (h : ShellChain s p l) (ha : Allocated s) :
    l.length ≤ s.allocs.length :=
  (List.subperm_of_subset h.nodup fun a hm =>
    let ⟨_, _, hd⟩ := (shellChain_iff_seg.mp h).live hm
    ha a _ hd).length_le

/-! ## Searching the list -/

theorem idAt_eq {a : Addr} {d : ShellData} (hd : s.heap a = some (.shell d)) :
    s.idAt a = some d.shellId := by
  rw [State.idAt, hd]

theorem idAt_eq_some {a : Addr} {shellId : List Char} :
    s.idAt a = some shellId ↔ ∃ d, s.heap a = some (.shell d) ∧ d.shellId = shellId := by
  unfold State.idAt
  split <;> simp_all

/-- No shell of `l` carries the ID: the search finds `NULL`. -/
theorem firstWithId_eq_zero {shellId : List Char} :
    ∀ {l : List Addr}, (∀ a ∈ l, s.idAt a ≠ some shellId) → firstWithId s shellId l = 0
  | [], _ => rfl
  | a :: _, h => by
    rw [firstWithId, if_neg (h a (List.mem_cons_self _ _)),
      firstWithId_eq_zero fun b hb => h b (List.mem_cons_of_mem _ hb)]

/-- The first shell of `l` with an ID that only `a` carries in `l` is `a`. -/
theorem firstWithId_eq {shellId : List Char} {a : Addr} :
    ∀ {l : List Addr}, a ∈ l → s.idAt a = some shellId →
      (∀ b ∈ l, s.idAt b = some shellId → b = a) → firstWithId s shellId l = a
  | b :: l, ha, hid, hu => by
    rw [firstWithId]
    split_ifs with hb
    · exact hu b (List.mem_cons_self _ _) hb
    · have hab : a ≠ b := by rintro rfl; exact hb hid
      exact firstWithId_eq ((List.mem_cons.mp ha).resolve_left hab) hid
        fun c hc => hu c (List.mem_cons_of_mem _ hc)

theorem findShellFrom_chain {shellId : List Char} (h : ShellChain s p l) :
    ∀ {fuel : ℕ}, l.length < fuel → findShellFrom s shellId fuel p = .ok (firstWithId s shellId l) := by
  induction h with
  | nil => intro fuel hf; cases fuel with
    | zero => cases hf
    | succ => rfl
  | @cons p d l hp hd _ ih =>
    intro fuel hf
    cases fuel with
    | zero => cases hf
    | succ fuel =>
      rw [findShellFrom, if_neg hp, State.shellAt_eq_ok.mpr ⟨hp, hd⟩, firstWithId, idAt_eq hd]
      dsimp only
      by_cases hid : shellId = d.shellId
      · simp [hid]
      · rw [if_neg hid, if_neg (by rintro ⟨⟩; exact hid rfl)]
        exact ih (Nat.lt_of_succ_lt_succ hf)

/-- **`FindShell` on a list of live shells.** It returns the first listed shell carrying the
ID, or `NULL`: the walk never faults and its bound never cuts it short. -/
theorem findShell_chain (shellId : List Char) (h : ShellChain s s.shellList l) (ha : Allocated s) :
    findShell s shellId = .ok (firstWithId s shellId l) :=
  findShellFrom_chain h (Nat.lt_succ_of_le (h.length_le ha))

/-- The search loop of `Shell_DeleteInstance` along a list of live shells: it returns the
first shell carrying the ID, and, when there is one, the shell before it (the list head
`previous` when it is the first). -/
theorem findShellLink_chain (shellId : List Char) (h : ShellChain s p l) :
    ∀ {fuel : ℕ} (previous : Addr), l.length < fuel → ∃ r,
      findShellLink s shellId fuel previous p = .ok (r, firstWithId s shellId l) ∧
      (firstWithId s shellId l ≠ 0 → ∃ l₁ l₂, l = l₁ ++ firstWithId s shellId l :: l₂ ∧
        ShellSeg s p l₁ (firstWithId s shellId l) ∧ (l₁ = [] ∧ r = previous ∨ ∃ l₀, l₁ = l₀ ++ [r])) := by
  induction h with
  | nil => intro fuel previous hf; cases fuel with
    | zero => cases hf
    | succ => exact ⟨previous, rfl, fun h => absurd rfl h⟩
  | @cons p d l hp hd hl ih =>
    intro fuel previous hf
    cases fuel with
    | zero => cases hf
    | succ fuel =>
      rw [findShellLink, if_neg hp, State.shellAt_eq_ok.mpr ⟨hp, hd⟩]
      simp only [firstWithId, idAt_eq hd, Option.some.injEq]
      by_cases hid : shellId = d.shellId
      · rw [if_pos hid, if_pos hid.symm]
        exact ⟨previous, rfl, fun _ => ⟨[], l, rfl, .nil p, .inl ⟨rfl, rfl⟩⟩⟩
      · rw [if_neg hid, if_neg (Ne.symm hid)]
        obtain ⟨r, hr, hsplit⟩ := ih p (Nat.lt_of_succ_lt_succ hf)
        refine ⟨r, hr, fun hne => ?_⟩
        obtain ⟨l₁, l₂, hl, hseg, hr'⟩ := hsplit hne
        refine ⟨p :: l₁, l₂, congrArg (List.cons p) hl, .cons hp hd hseg, .inr ?_⟩
        rcases hr' with ⟨rfl, rfl⟩ | ⟨l₀, rfl⟩
        · exact ⟨[], rfl⟩
        · exact ⟨p :: l₀, rfl⟩

end ShellProvider

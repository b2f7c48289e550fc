import Mathlib.Data.List.Basic
import Mathlib.Algebra.Group.Nat.Basic

/-!
# Machine values of the Shell provider

`Shell.c` deals with three outside parties through C pointers and status codes: the MI
layer (call contexts `MI_Context*`, results `MI_Result`), the C heap (`calloc`/`free`), and
the WSMan plug-in backend (opaque `PVOID` handles). This file fixes how the model represents
those values:

* pointers are addresses `Addr := ℕ`, and `0` is `NULL`; call contexts and backend handles
  are pointers too;
* `Fault` names the undefined behaviour the model stops at instead of guessing an outcome;
* `formatId` is the `Stprintf(…, ID_LENGTH, "%llx", address)` that turns the address of an
  ID buffer into a shell or command ID, and `parseHex` inverts it on 64-bit values, so that
  distinct addresses give distinct IDs (`formatId_injective`).

C strings are `List Char`: the characters before the terminating NUL, which is how the MI
layer hands over every string parameter.
-/

namespace ShellProvider

/-- The `MI_Result` codes `Shell.c` posts. -/
inductive MIResult
  | ok
  | failed
  | notFound
  | alreadyExists
  | notSupported
  | invalidParameter
  | serverLimitsExceeded
  deriving DecidableEq, Repr

/-- A heap address; `0` is `NULL`. -/
abbrev Addr := ℕ

/-- An `MI_Context*`: the reply channel of one remote call; `0` is `NULL`. -/
abbrev Ctx := ℕ

/-- A `PVOID` handle the backend hands back through `WSManPluginReportContext`. -/
abbrev Handle := ℕ

/-- The undefined behaviour a run can reach. The model stops there: what the C program does
next depends on memory the model does not describe. -/
inductive Fault
  /-- a read or write through `NULL` -/
  | nullDeref
  /-- a read, write or `free` of memory already freed -/
  | useAfterFree
  /-- a read or write outside the allocation it addresses -/
  | outOfBounds
  /-- an object read through the layout of another structure -/
  | typeConfusion
  /-- a loop that never exits -/
  | divergence
  deriving DecidableEq, Repr

/-- How a codec function of `Shell.c` ends when it does not return `MI_RESULT_OK`: it
returns another `MI_Result`, or it reaches undefined behaviour. -/
inductive Failure
  | result (r : MIResult)
  | fault (f : Fault)
  deriving DecidableEq, Repr

/-! ## Replies -/

/-- The `state` URI of a `CommandState` instance: `…/CommandState/Done` or `…/Running`. -/
inductive CommandStateValue
  | done
  | running
  deriving DecidableEq, Repr

/-- The `Stream` instance a receive result carries. -/
structure StreamInstance where
  commandId : Option (List Char)
  streamName : List Char
  endOfStream : Option Bool
  deriving DecidableEq, Repr

/-- An instance the provider posts. -/
inductive Instance
  /-- `Shell_Post` of a shell's instance, whose `Name` is the shell ID -/
  | shell (shellId : List Char)
  /-- `Shell_Command_Post` of a command's instance, whose `CommandId` is set -/
  | command (commandId : List Char)
  /-- `Shell_Receive_Post`: the `CommandState` (its command ID and state) and the stream -/
  | receive (commandId : Option (List Char)) (state : CommandStateValue)
      (stream : Option StreamInstance)
  /-- `Shell_Send_Post` -/
  | send
  /-- `Shell_Signal_Post` -/
  | signal
  deriving DecidableEq, Repr

/-- One call into the MI layer's reply channel: an instance, or `MI_Context_PostResult`, the
final result that completes the call. -/
inductive Post
  | inst (context : Ctx) (i : Instance)
  | result (context : Ctx) (r : MIResult)
  deriving DecidableEq, Repr

/-! ## Reducing `Except` computations -/

@[simp] theorem ok_bind {ε α β : Type} (a : α) (f : α → Except ε β) :
    (Except.ok a >>= f) = f a := rfl

@[simp] theorem error_bind {ε α β : Type} (e : ε) (f : α → Except ε β) :
    (Except.error e >>= f) = Except.error e := rfl

@[simp] theorem pure_eq_ok {ε α : Type} (a : α) : (pure a : Except ε α) = Except.ok a := rfl

@[simp] theorem map_ok {ε α β : Type} (f : α → β) (a : α) :
    (f <$> (Except.ok a : Except ε α)) = Except.ok (f a) := rfl

theorem bind_eq_ok {ε α β : Type} {x : Except ε α} {f : α → Except ε β} {b : β} :
    (x >>= f) = Except.ok b ↔ ∃ a, x = Except.ok a ∧ f a = Except.ok b := by
  cases x <;> simp

@[simp] theorem throw_eq_error {ε α : Type} (e : ε) : (throw e : Except ε α) = Except.error e := rfl

/-! ## Shell and command IDs -/

/-- `ID_LENGTH`: sixteen hex digits of a 64-bit value and the terminating NUL. -/
def idLength : ℕ := 17

/-- The lower-case hexadecimal digit `"%llx"` prints for `d < 16`. -/
def hexDigit (d : ℕ) : Char :=
  if d < 10 then Char.ofNat (48 + d) else Char.ofNat (87 + d)

/-- The value of a lower-case hexadecimal digit. -/
def hexValue (c : Char) : ℕ :=
  if c.toNat < 58 then c.toNat - 48 else c.toNat - 87

theorem hexValue_hexDigit : ∀ d, d < 16 → hexValue (hexDigit d) = d := by
  decide

/-- The digits of `v` in base 16, most significant first, put in front of `acc`, built from
the right as `printf` does with room for `fuel` digits. -/
def hexDigits : ℕ → ℕ → List Char → List Char
  | 0, _, acc => acc
  | fuel + 1, v, acc =>
    if v / 16 = 0 then hexDigit (v % 16) :: acc
    else hexDigits fuel (v / 16) (hexDigit (v % 16) :: acc)

/-- `Stprintf(id, ID_LENGTH, "%llx", v)`: the ID written for the value `v`. -/
def formatId (v : ℕ) : List Char :=
  hexDigits (idLength - 1) v []

/-- Reading back a hexadecimal numeral, most significant digit first, after `acc`. -/
def parseHexFrom (acc : ℕ) (cs : List Char) : ℕ :=
  cs.foldl (fun n c => 16 * n + hexValue c) acc

/-- Reading back a hexadecimal numeral. -/
def parseHex (cs : List Char) : ℕ :=
  parseHexFrom 0 cs

theorem parseHexFrom_hexDigits :
    ∀ fuel v acc, 0 < fuel → v < 16 ^ fuel →
      parseHex (hexDigits fuel v acc) = parseHexFrom v acc
  | 0, _, _, h, _ => absurd h (Nat.lt_irrefl 0)
  | fuel + 1, v, acc, _, hv => by
    have hd : hexValue (hexDigit (v % 16)) = v % 16 := hexValue_hexDigit _ (Nat.mod_lt _ (by omega))
    by_cases hq : v / 16 = 0
    · simp only [hexDigits, hq, if_true, parseHex, parseHexFrom, List.foldl_cons, hd]
      congr 1
      omega
    · have hlt : v / 16 < 16 ^ fuel := by rw [Nat.pow_succ] at hv; omega
      have hpos : 0 < fuel := Nat.pos_of_ne_zero fun h => by simp [h] at hlt; omega
      simp only [hexDigits, hq, if_false]
      rw [parseHexFrom_hexDigits fuel (v / 16) _ hpos hlt]
      simp only [parseHexFrom, List.foldl_cons, hd]
      congr 1
      omega

/-- `"%llx"` is read back exactly on every 64-bit value. -/
theorem parseHex_formatId {v : ℕ} (hv : v < 2 ^ 64) : parseHex (formatId v) = v := by
  have h : (2 : ℕ) ^ 64 = 16 ^ (idLength - 1) := by decide
  rw [formatId, parseHexFrom_hexDigits _ _ _ (by decide) (h ▸ hv)]
  rfl

/-- **Distinct 64-bit values get distinct IDs.** -/
theorem formatId_injective {v w : ℕ} (hv : v < 2 ^ 64) (hw : w < 2 ^ 64)
    (h : formatId v = formatId w) : v = w := by
  rw [← parseHex_formatId hv, ← parseHex_formatId hw, h]

end ShellProvider

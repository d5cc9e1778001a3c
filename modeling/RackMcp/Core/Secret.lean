import Mathlib.Data.List.DropRight
import Mathlib.Logic.Function.Basic
import RackMcp.Core.Crypto

/-!
# The pairing secret in the user directory

`core/secret.cpp` as the Rack processes of one user directory run it. A step is one system call of one process, with
what the operating system answers; the processes take their steps in any order. A file is read as it is when it is
opened, since a `rename` puts another file in its place. `close`, and the `chmod`s whose result is ignored, are no steps
of their own. The Windows branch makes the same calls under other names, with one `fwrite` for the loop of `write`s.
-/

namespace RackMcp

/-- A raw secret. -/
abbrev PairingSecret := {raw : List UInt8 // raw.length = 32}

/-! ### The file -/

/-- What `generateSecret` has written: the hex digits and a newline. -/
def secretText (secret : PairingSecret) : List UInt8 := stringBytes (toHex secret.val) ++ [0x0a]

/-- The bytes trimmed from the end. -/
def isTrimmed (c : UInt8) : Bool := c == 0x0a || c == 0x0d || c == 0x20

/-- `readSecretFile`, of what the file holds. -/
def readSecretFile (file : Option (List UInt8)) : Option PairingSecret :=
  match file with
  | none => none
  | some contents =>
    let hex := contents.rdropWhile isTrimmed
    if hex.length ≠ 64 then none
    else
      match fromHex hex with
      | none => none
      | some raw => if h : raw.length = 32 then some ⟨raw, h⟩ else none

/-! ### The calls -/

/-- Where a call of `loadOrCreateSecret` stands: the system call it makes next, or what it has returned. -/
inductive LoadStage where
  /-- `ensurePrivateDirectory` -/
  | entering
  /-- `readSecretFile` -/
  | reading
  /-- `randomBytes` -/
  | drawing
  /-- `open` of the temporary file -/
  | opening (raw : PairingSecret)
  /-- `write`, so many bytes being written -/
  | writing (raw : PairingSecret) (written : ℕ)
  /-- `fsync` -/
  | syncing (raw : PairingSecret)
  /-- `rename` over the secret -/
  | renaming (raw : PairingSecret)
  /-- returned true with `secretOut`, or false -/
  | returned (secretOut : Option PairingSecret) (created : Bool)
deriving DecidableEq

/-- What the operating system answers: whether the call succeeds, the bytes if it draws some, how many it writes if
it writes. -/
structure Answer where
  ok : Bool := true
  random : PairingSecret := ⟨List.replicate 32 0, rfl⟩
  count : ℕ := 0

/-- A process makes its next system call. -/
structure SysCall where
  pid : ℕ
  answer : Answer

/-- The directory `RackMCP`: `secret`, the `secret.tmp.<pid>`, and where the call of each process stands. -/
structure SecretDir where
  secret : Option (List UInt8)
  temps : ℕ → Option (List UInt8)
  calls : ℕ → LoadStage

namespace SecretDir

/-- Each process is yet to call. What is in the directory is left from before, be it a temporary file. -/
def initial (secret : Option (List UInt8)) (temps : ℕ → Option (List UInt8)) : SecretDir :=
  ⟨secret, temps, fun _ => .entering⟩

/-- The call of a process goes on. -/
def goes (d : SecretDir) (pid : ℕ) (stage : LoadStage) : SecretDir :=
  { d with calls := Function.update d.calls pid stage }

/-- The temporary file of a process. -/
def setTemp (d : SecretDir) (pid : ℕ) (contents : Option (List UInt8)) : SecretDir :=
  { d with temps := Function.update d.temps pid contents }

/-- `writePrivateFileAtomic` gives up: `unlink`, and false. -/
def givesUp (d : SecretDir) (pid : ℕ) : SecretDir := (d.setTemp pid none).goes pid (.returned none true)

/-- One system call. -/
def step (d : SecretDir) (e : SysCall) : SecretDir :=
  match d.calls e.pid with
  | .entering => d.goes e.pid (if e.answer.ok then .reading else .returned none false)
  | .reading =>
    match if e.answer.ok then readSecretFile d.secret else none with
    | some raw => d.goes e.pid (.returned (some raw) false)
    | none => d.goes e.pid .drawing
  | .drawing => d.goes e.pid (if e.answer.ok then .opening e.answer.random else .returned none true)
  | .opening raw =>
    if e.answer.ok then (d.setTemp e.pid (some [])).goes e.pid (.writing raw 0)
    else d.goes e.pid (.returned none true)
  | .writing raw written =>
    let n := min e.answer.count ((secretText raw).length - written)
    if e.answer.ok = false ∨ n = 0 then d.givesUp e.pid
    else
      let contents := (d.temps e.pid).getD [] ++ ((secretText raw).drop written).take n
      (d.setTemp e.pid (some contents)).goes e.pid
        (if written + n < (secretText raw).length then .writing raw (written + n) else .syncing raw)
  | .syncing raw => if e.answer.ok then d.goes e.pid (.renaming raw) else d.givesUp e.pid
  | .renaming raw =>
    if e.answer.ok then
      { (d.setTemp e.pid none).goes e.pid (.returned (some raw) true) with secret := d.temps e.pid }
    else d.givesUp e.pid
  | .returned _ _ => d

/-- The directory after so many system calls. -/
def run (d : SecretDir) (events : List SysCall) : SecretDir := events.foldl step d

end SecretDir

/-- The secret that a call has returned true with. -/
def LoadStage.secret? : LoadStage → Option PairingSecret
  | .returned secretOut _ => secretOut
  | _ => none

/-! ### Reading what was written -/

theorem isTrimmed_hexByte {n : Nat} (h : n < 16) : isTrimmed (hexByte n) = false := by
  interval_cases n <;> rfl

theorem length_stringBytes_toHex (data : List UInt8) : (stringBytes (toHex data)).length = 2 * data.length := by
  rw [stringBytes_toHex, List.length_flatMap]
  simp [Nat.mul_comm]

theorem isTrimmed_of_mem_toHex {data : List UInt8} {c : UInt8} (h : c ∈ stringBytes (toHex data)) :
    isTrimmed c = false := by
  rw [stringBytes_toHex] at h
  obtain ⟨b, -, hb⟩ := List.mem_flatMap.mp h
  have hlt := b.toNat_lt
  rcases List.mem_pair.mp hb with rfl | rfl
  · exact isTrimmed_hexByte (by omega)
  · exact isTrimmed_hexByte (by omega)

theorem rdropWhile_secretText (secret : PairingSecret) :
    (secretText secret).rdropWhile isTrimmed = stringBytes (toHex secret.val) := by
  unfold secretText
  rw [List.rdropWhile_concat_pos isTrimmed _ _ rfl, List.rdropWhile_eq_self_iff]
  intro hne
  rw [isTrimmed_of_mem_toHex (List.getLast_mem hne)]
  exact Bool.false_ne_true

/-- A secret that was written is read. -/
theorem readSecretFile_secretText (secret : PairingSecret) : readSecretFile (some (secretText secret)) = some secret := by
  have hlen : (stringBytes (toHex secret.val)).length = 64 := by
    rw [length_stringBytes_toHex, secret.property]
  unfold readSecretFile
  simp only [rdropWhile_secretText, hlen, fromHex_toHex, secret.property, ne_eq, not_true_eq_false, if_false, dif_pos]

end RackMcp

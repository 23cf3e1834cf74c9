import WaterMaker.Framework.Vote
import WaterMaker.Framework.Xor
import WaterMaker.Spec.Registers
import WaterMaker.Impl.Boot
import WaterMaker.Impl.I2c
import WaterMaker.Impl.Persist

/-!
# The configuration store

What the three user banks are for: they hold one configuration `w`, word by word the value that two of them agree
on (`Holds`). Reading a word brings the three banks into agreement on it (`mend`), and in the bank that was wrong
carries the checksum on, as if the wrong word had been written there on purpose. `Consistent` is the state that
`save_conf_reg` leaves: three equal banks whose words cancel out.
-/

namespace WM.Spec

open WM WM.Impl

/-- There are three user banks. -/
theorem forall_user {P : EeArea → Prop} : (∀ b, b ≠ .fact → P b) ↔ P .ee1 ∧ P .ee2 ∧ P .ee3 := by
  constructor
  · intro h
    exact ⟨h .ee1 nofun, h .ee2 nofun, h .ee3 nofun⟩
  · rintro ⟨h1, h2, h3⟩ b hb
    cases b with
    | ee1 => exact h1
    | ee2 => exact h2
    | ee3 => exact h3
    | fact => exact absurd rfl hb

/-- Word `i` by majority of the user banks. -/
def majority (e : Eeprom) (i : Nat) : Option Word := vote (e.bank .ee1 i) (e.bank .ee2 i) (e.bank .ee3 i)

/-- The user banks hold the configuration `w`. -/
def Holds (w : Nat → Word) (e : Eeprom) : Prop := ∀ i < confRegMapNum, majority e i = some (w i)

/-- All three of them hold it. -/
def Agree (w : Nat → Word) (e : Eeprom) : Prop := ∀ b, b ≠ .fact → ∀ i < confRegMapNum, e.bank b i = w i

/-- At most one user bank has lost word `i` of `w`. -/
def OneWrong (w : Nat → Word) (e : Eeprom) (i : Nat) : Prop :=
  ∀ b b', b ≠ .fact → b' ≠ .fact → e.bank b i ≠ w i → e.bank b' i ≠ w i → b = b'

structure Consistent (e : Eeprom) : Prop where
  same : ∀ b, b ≠ .fact → ∀ i ≤ confRegMapNum, e.bank b i = e.bank .ee1 i
  sum : xorSum (e.bank .ee1) (confRegMapNum + 1) = 0#16

section majority

variable {w : Nat → Word} {e : Eeprom} {i : Nat}

theorem OneWrong.majority (h : OneWrong w e i) : majority e i = some (w i) := by
  have hpair : ∀ b b', b ≠ .fact → b' ≠ .fact → b ≠ b' → e.bank b i = w i ∨ e.bank b' i = w i := by
    intro b b' hb hb' hne
    by_contra hno
    rw [not_or] at hno
    exact hne (h b b' hb hb' hno.1 hno.2)
  exact vote_of_one_wrong (hpair .ee1 .ee2 nofun nofun nofun) (hpair .ee1 .ee3 nofun nofun nofun)
    (hpair .ee2 .ee3 nofun nofun nofun)

theorem majority_of_same {v : Word} (h : ∀ b, b ≠ .fact → e.bank b i = v) : Spec.majority e i = some v := by
  unfold Spec.majority
  rw [h .ee1 nofun, h .ee2 nofun, h .ee3 nofun, vote_same]

theorem Agree.holds (h : Agree w e) : Holds w e := fun i hi => majority_of_same fun b hb => h b hb i hi

end majority

namespace Consistent

variable {e : Eeprom} (h : Consistent e)
include h

theorem agree : Agree (e.bank .ee1) e := fun b hb i hi => h.same b hb i (Nat.le_of_lt hi)

theorem checksum : xorSum (e.bank .ee1) confRegMapNum = e.bank .ee1 confRegMapNum :=
  xor_eq_zero_iff.mp ((xorSum_succ ..).symm.trans h.sum)

theorem majority_sum : Spec.majority e confRegMapNum = some (e.bank .ee1 confRegMapNum) :=
  majority_of_same fun b hb => h.same b hb _ (Nat.le_refl _)

end Consistent

/-! ## Mending -/

/-- A bank in which word `i` is made `v`, with the checksum carried on. -/
def mend (i : Nat) (v : Word) (f : Nat → Word) : Nat → Word :=
  Function.update (Function.update f i v) confRegMapNum (f confRegMapNum ^^^ f i ^^^ v)

section mend

variable {f : Nat → Word} {i : Nat} {v : Word}

/-- A bank that is right already stays as it is. -/
theorem mend_right (h : f i = v) : mend i v f = f := by
  unfold mend
  rw [h, xor_xor_cancel, ← h, Function.update_eq_self, Function.update_eq_self]

theorem mend_checksum (v : Word) (f : Nat → Word) : mend confRegMapNum v f = Function.update f confRegMapNum v := by
  unfold mend
  rw [BitVec.xor_self, BitVec.zero_xor, Function.update_idem]

theorem mend_at (h : i < confRegMapNum) : mend i v f i = v := by
  unfold mend
  rw [Function.update_of_ne (Nat.ne_of_lt h), Function.update_self]

theorem mend_of_ne {k : Nat} (hk : k ≠ i) (hcs : k ≠ confRegMapNum) : mend i v f k = f k := by
  unfold mend
  rw [Function.update_of_ne hcs, Function.update_of_ne hk]

theorem mend_sum (i : Nat) (v : Word) (f : Nat → Word) :
    mend i v f confRegMapNum = f confRegMapNum ^^^ f i ^^^ v := Function.update_self ..

end mend

/-- The same change made to every user bank. -/
def onUsers (g : (Nat → Word) → Nat → Word) (e : Eeprom) : Eeprom :=
  { e with bank := fun b => if b = .fact then e.bank b else g (e.bank b) }

theorem bank_onUsers {g : (Nat → Word) → Nat → Word} {e : Eeprom} {b : EeArea} (h : b ≠ .fact) :
    (onUsers g e).bank b = g (e.bank b) := if_neg h

@[simp] theorem fact_onUsers (g : (Nat → Word) → Nat → Word) (e : Eeprom) :
    (onUsers g e).bank .fact = e.bank .fact := rfl

theorem onUsers_congr {g g' : (Nat → Word) → Nat → Word} {e : Eeprom}
    (h : ∀ b, b ≠ .fact → g (e.bank b) = g' (e.bank b)) : onUsers g e = onUsers g' e := by
  unfold onUsers
  congr 1
  funext b
  split
  · rfl
  · rename_i hb
    exact h b hb

theorem onUsers_self {g : (Nat → Word) → Nat → Word} {e : Eeprom} (h : ∀ b, b ≠ .fact → g (e.bank b) = e.bank b) :
    onUsers g e = e := by
  rw [onUsers_congr (show ∀ b, b ≠ .fact → g (e.bank b) = id (e.bank b) from h)]
  unfold onUsers
  simp only [id_eq, ite_self]

theorem onUsers_onUsers (g g' : (Nat → Word) → Nat → Word) (e : Eeprom) :
    onUsers g (onUsers g' e) = onUsers (fun f => g (g' f)) e := by
  unfold onUsers
  congr 1
  funext b
  dsimp only
  split <;> rfl

theorem majority_onUsers (g : (Nat → Word) → Nat → Word) (e : Eeprom) (i : Nat) :
    majority (onUsers g e) i = vote (g (e.bank .ee1) i) (g (e.bank .ee2) i) (g (e.bank .ee3) i) := rfl

/-! ## The vote -/

/-- What a vote on word `i` is to do: where two banks agree on `v`, it returns 0 and `v`, brings the third bank to it,
and touches nothing else but that bank's checksum; where no two agree, it returns 1 and `0x7fff` and writes nothing. -/
structure VotesRight (i : Nat) (prior : Word) (e : Eeprom) : Prop where
  agreed : ∀ v, majority e i = some v → ∃ e', eepromCompareRead i prior e = (0, v, e') ∧ e'.flag = e.flag ∧
    (∀ b, b ≠ .fact → e'.bank b i = v) ∧
    ∀ b k, e'.bank b k = e.bank b k ∨ b ≠ .fact ∧ e.bank b i ≠ v ∧ (k = i ∨ k = confRegMapNum)
  split : majority e i = none → eepromCompareRead i prior e = (1, 0x7fff, e)

/-- What a word of the EEPROM loads: itself, or the default where the register cannot hold it. -/
def loaded (i : Nat) (v : Word) : Word :=
  if Allowed i v then v else ((confReg i).map fun r => BitVec.ofNat 16 r.dft).getD v

theorem loaded_of_allowed {i : Nat} {v : Word} (h : Allowed i v) : loaded i v = v := if_pos h

/-- What a start is to make of settings that it cannot read: a register on whose word no two banks agree gets its
default, and the load of the banks reports it; and whatever is loaded, every register is within its range. -/
structure FallsBack (startInit : Bool) (sts : Nat → Word) (d : Dev) : Prop where
  unread : ∀ i r, confReg i = some r → r.mapped = true → majority d.ee i = none →
    (initLoadUserConf d).2.conf i = BitVec.ofNat 16 r.dft ∧ (initLoadUserConf d).1 = 0
  range : ∀ i, isMapped i = true → Allowed i ((sysGlobalVarInit startInit sts d).conf i)

/-! ## Saving -/

/-- A bank written and read back: the words that were read, and the EEPROM then. -/
def verified (image : List Word) (b : EeArea) (e : Eeprom) : (Nat → Word) × Eeprom :=
  (i2cEeBufRead b 0 (i2cEeBufWrite b 0 image e).2).2

def ReadsBack (image : List Word) (b : EeArea) (e : Eeprom) : Prop :=
  ∀ x ∈ image.zipIdx, x.1 = (verified image b e).1 x.2

/-- The EEPROM when `save_conf_reg` comes to a bank. -/
def turnOf (image : List Word) (e : Eeprom) : EeArea → Eeprom
  | .ee2 => (saveBank image eeFlagLoadUsr .ee1 0 e).2
  | .ee3 =>
    let x := saveBank image eeFlagLoadUsr .ee1 0 e
    (saveBank image eeFlagLoadUsr .ee2 x.1 x.2).2
  | _ => e

/-- The bank reads back right when it is saved. -/
def Right (image : List Word) (e : Eeprom) (b : EeArea) : Prop := ReadsBack image b (turnOf image e b)

/-- The transfer after that, which is to write the checksum, succeeds. -/
def SumTaken (image : List Word) (e : Eeprom) (b : EeArea) : Prop :=
  (verified image b (turnOf image e b)).2.transfer.1 = .done

/-- What `save_conf_reg` is to do with the user banks: those that read back right get the checksum of the registers,
no other gets a new one, and the result is 0 if two of them read back right. -/
structure SavesRight (image : List Word) (e : Eeprom) : Prop where
  sum : ∀ b, b ≠ .fact → Right image e b → SumTaken image e b →
    (saveConfReg 0 image e).2.bank b confRegMapNum = checksumU16 image
  kept : ∀ b, b ≠ .fact → ¬Right image e b →
    (saveConfReg 0 image e).2.bank b confRegMapNum = e.bank b confRegMapNum
  report : (saveConfReg 0 image e).1 = 0 ↔ Right image e .ee1 ∧ Right image e .ee2 ∨
    Right image e .ee1 ∧ Right image e .ee3 ∨ Right image e .ee2 ∧ Right image e .ee3

/-! ## Writes of single registers -/

/-- Registers that are not written to the EEPROM. -/
def Volatile (i : Nat) : Prop := i = eeWaterMode ∨ i = eeWaterFlow

instance (i : Nat) : Decidable (Volatile i) := by unfold Volatile; infer_instance

/-- A call of `reg_map_write` for one register. -/
structure RegWrite where
  reg : Nat
  value : Word
  user : UserId
  deriving DecidableEq, Repr

def regStep (null : NullStore) (d : Dev) (x : RegWrite) : Dev :=
  match regMapWrite null x.reg [x.value] x.user d with
  | .ok (_, d) => d
  | .error _ => d

/-- The call returns `CPAD_ERR_NOERR`. -/
def Taken (null : NullStore) (d : Dev) (x : RegWrite) : Prop :=
  ∃ d', regMapWrite null x.reg [x.value] x.user d = .ok (.noErr, d')

/-- What a checked write of one register is to do: with an error nothing changes; without one the register is there,
may be written by this user and may hold the value, and nothing has changed but that it does, the EEPROM and the
log. -/
def Checked (null : NullStore) (d : Dev) (x : RegWrite) : Prop :=
  ∃ err d', regMapWrite null x.reg [x.value] x.user d = .ok (err, d') ∧ (err ≠ .noErr → d' = d) ∧
    (err = .noErr → x.reg < confRegMapNum ∧
      (∃ r, confReg x.reg = some r ∧ r.rw = 1 ∧ r.permission ≤ (if x.user = .modebusSlave then 3 else 4) ∧
        r.min ≤ x.value.toNat ∧ x.value.toNat ≤ r.max) ∧
      ∃ ee events, d' = { d with conf := Function.update d.conf x.reg x.value, ee := ee, events := events })

/-- The row of the write, if there is one, has a register. -/
def RegWrite.Mapped (x : RegWrite) : Prop := ∀ r ∈ confReg x.reg, r.mapped = true

instance (x : RegWrite) : Decidable x.Mapped := by unfold RegWrite.Mapped; infer_instance

/-- The value of the last write to register `i`. -/
def lastWrite : List RegWrite → Nat → Option Word
  | [], _ => none
  | x :: xs, i => (lastWrite xs i).or (if x.reg = i then some x.value else none)

/-- The configuration `w` with the writes put in. -/
def rewrite (w : Nat → Word) (x : RegWrite) : Nat → Word := Function.update w x.reg x.value

theorem run_rewrite (w : Nat → Word) (xs : List RegWrite) (i : Nat) :
    run rewrite w xs i = (lastWrite xs i).getD (w i) := by
  induction xs generalizing w with
  | nil => rfl
  | cons x xs ih =>
    rw [run_cons, ih, lastWrite]
    cases lastWrite xs i with
    | some v => rfl
    | none =>
      rw [Option.getD_none, Option.none_or, rewrite]
      by_cases h : x.reg = i
      · rw [if_pos h, ← h, Function.update_self]
        rfl
      · rw [if_neg h, Function.update_of_ne (Ne.symm h)]
        rfl

/-- What the damage of a bank comes to in its checksum. -/
def residue (w : Nat → Word) (e : Eeprom) (b : EeArea) : Word := xorSum (fun i => e.bank b i ^^^ w i) confRegMapNum

/-- The damage comes to something else in each of the user banks. -/
def Scattered (w : Nat → Word) (e : Eeprom) : Prop :=
  residue w e .ee1 ≠ residue w e .ee2 ∧ residue w e .ee1 ≠ residue w e .ee3 ∧ residue w e .ee2 ≠ residue w e .ee3

instance (w : Nat → Word) (e : Eeprom) : Decidable (Scattered w e) := by unfold Scattered; infer_instance

/-! ## What keeps the checksums -/

/-- A single write, a setting that the machine changes by itself, or a block of `n` registers from the network's
password on. -/
inductive ConfWrite
  | single (i : Nat) (v : Word) (user : UserId)
  | self (c : SelfChange) (s : Sys)
  | wifi (buf : Nat → Byte) (n : Nat)

/-- A local variable that is not assigned holds `stack`. -/
def withStack (stack : Word) (d : Dev) : Dev := { d with ee := { d.ee with stack := stack } }

namespace ConfWrite

def exec (null : NullStore) (d : Dev) : ConfWrite → Except Halt Dev
  | single i v user => (regMapWrite null i [v] user d).map Prod.snd
  | self c s => c.persist null s d
  | wifi buf n => (multipleWrite null buf (configRegMapOffset + eeWifiPassword) n d).map Prod.snd

/-- Only a single write is checked. -/
def Accepted (d : Dev) : ConfWrite → Prop
  | single i v user => regMapCheck i [v] user d = .noErr
  | self .. | wifi .. => True

/-- It leaves the user banks consistent, whatever the stack held before. -/
def KeepsSums (null : NullStore) (d : Dev) (x : ConfWrite) : Prop :=
  ∀ stack, ∃ d', x.exec null (withStack stack d) = .ok d' ∧ Consistent d'.ee

end ConfWrite

/-- The setting that a call changes: a full tank ends the filling, the last stage the storage, and the timer
switches the power. -/
def changes (s : Sys) : SelfChange → Option (Nat × Nat)
  | .pwpReqExe =>
    if s.stor.status = false ∧ (s.cfg.exitWater = .exit ∧ s.cfg.disinfectionMode ≠ 0 ∨ s.cfg.exitWater = .fill) ∧
      (getWaterLevel s).dM = true then some (50, 0) else none
  | .storageExe => if s.stor.fsm = .stop then some (120, 0) else none
  | .sysGetPwrSignal =>
    if s.cfg.powerMode = 0 then if timedPower s.cfg.tPowerOn s then some (36, 1) else none
    else if timedPower s.cfg.tPowerOff s then some (36, 0) else none

/-- The checksum word can be read, and word `i` of the banks is `v`. -/
def Known (e : Eeprom) (i : Nat) (v : Word) : Prop := e.bank .ee1 confRegMapNum ≠ 0 ∧ e.bank .ee1 i = v

instance (e : Eeprom) (i : Nat) (v : Word) : Decidable (Known e i v) := by unfold Known; infer_instance

/-- A write that keeps the checksums: the value that the register had before it is the one in the banks, and their
checksum is not 0. A setting that the machine has changed is not in the banks yet, unless it was the same there. -/
def SumSafe (d : Dev) : ConfWrite → Prop
  | .single i _ _ => isMapped i = true ∧ (Volatile i ∨ Known d.ee i (d.conf i))
  | .self c s => ∀ x ∈ changes { s with cfg := d.config } c, Known d.ee x.1 (BitVec.ofNat 16 x.2)
  | .wifi buf n => 0 < n → n ≤ 100 → d.conf eeWifiSet = 0x5AA5 ∧
      xorSum ({ d with conf := blit d.conf eeWifiPassword (sent buf n) } : Dev).word confRegMapNum ≠ 0

/-! ## Calls with a failing read -/

inductive StoreCall
  | compareRead (prior : Word)
  | trippleWrite (wr rd : Word)

/-- A vote on word `i` returns it and changes nothing; a write leaves consistent banks with the new word, and the
others as they were, whatever the stack held. -/
def StoreCall.Unharmed (i : Nat) (e : Eeprom) : StoreCall → Prop
  | compareRead prior => ∃ e', eepromCompareRead i prior e = (0, e.bank .ee1 i, e') ∧ e'.bank = e.bank
  | trippleWrite wr rd => ∀ stack, ∃ e', eepromTrippleWrite i wr rd { e with stack := stack } = (0, e') ∧
      Consistent e' ∧ ∀ b, b ≠ .fact → ∀ k < confRegMapNum, e'.bank b k = Function.update (e.bank b) i wr k

/-- A failed read leaves `got` where it does no harm. -/
def Harmless (i : Nat) (e : Eeprom) (got : Word) : StoreCall → Prop
  | .compareRead prior => got = e.bank .ee1 i ∧ (got ≠ 0 ∨ prior = 0)
  | .trippleWrite _ rd => ¬(e.bank .ee1 confRegMapNum = 0 ∧ got = 0) ∧ e.bank .ee1 i = rd

/-! ## Between two starts -/

/-- A write to a register, another change of the registers, or the choice of the next load. -/
inductive ConfEvent
  | write (x : RegWrite)
  | ram (conf : Nat → Word)
  | flag (sel : Nat)

def confStep (null : NullStore) (d : Dev) : ConfEvent → Dev
  | .write x => regStep null d x
  | .ram conf => { d with conf := conf }
  | .flag sel => d.setFlag sel

/-! ## Ways back -/

/-- A start, before which the registers held `ram`. -/
def restart (startInit : Bool) (ram sts : Nat → Word) (d : Dev) : Dev :=
  sysGlobalVarInit startInit sts { d with conf := ram }

/-- The original parameters by the flag or by the jumper, the factory settings by the flag or at once
(`load_factory_pram`), and the defaults. -/
inductive ResetPath
  | debut | jumper | fact | pram | dft
  deriving DecidableEq, Repr

def ResetPath.exec (ram sts : Nat → Word) (d : Dev) : ResetPath → Dev
  | debut => restart false ram sts (d.setFlag 2)
  | jumper => restart true ram sts d
  | fact => restart false ram sts (d.setFlag 1)
  | pram => restart false ram sts (loadFactoryPram d)
  | dft => restart false ram sts (d.setFlag 3)

def ResetPath.ofFactory : ResetPath → Bool
  | fact | pram => true
  | debut | jumper | dft => false

/-- The rows of the device's identity. -/
def InIdentity (i : Nat) : Prop := confRegSidStart ≤ i ∧ i < confRegMapNum

/-- The user banks hold the identity `sid`. -/
def StoresIdentity (sid : Nat → Word) (e : Eeprom) : Prop :=
  ∀ i, InIdentity i → ∀ b, b ≠ .fact → e.bank b i = sid i

/-- The registers hold it as well. -/
def HasIdentity (sid : Nat → Word) (d : Dev) : Prop :=
  (∀ i, InIdentity i → d.conf i = sid i) ∧ StoresIdentity sid d.ee

/-! ## Pages of the chip -/

def AllOk (ws : List PageWrite) : Prop := ∀ w ∈ ws, w.ok = true

/-- On the way from `c` to `c'` the page writes `ws` were made for the bytes `bs` from address `a` on. Each of them
stays in a page, and nothing changes at the other addresses; if they all succeed, they are these bytes. -/
structure Pages (a : Nat) (bs : List Byte) (c c' : Chip) (ws : List PageWrite) : Prop where
  issued : c'.issued = c.issued ++ ws
  inPage : ∀ w ∈ ws, w.burst.InPage i2cEePageSize
  kept : ∀ k, ¬(a ≤ k ∧ k < a + bs.length) → c'.mem k = c.mem k
  covers : AllOk ws → Covers a (ws.map PageWrite.burst) bs
  mem : AllOk ws → c'.mem = blit c.mem a bs

/-- The same for a call with a result. -/
def Paged (a : Nat) (bs : List Byte) (c : Chip) (r : Nat × Chip) : Prop :=
  ∃ ws, Pages a bs c r.2 ws ∧ (AllOk ws → r.1 = eepromNoErro)

/-- A page write with its end, for `MayLeave`. -/
def ended (w : PageWrite) : Burst Byte × Bool := (w.burst, w.ok)

/-- The page writes that a call made. -/
def madeBy (c : Chip) (r : Nat × Chip) : List PageWrite := r.2.issued.drop c.issued.length

/-- Whatever the page writes that failed leave in their pages: after a call that returns `EEPROM_NOERRO`, the range
holds the buffer. An address has 16 bits. -/
def FailuresReported (buf : Nat → Byte) (addr num : Word) (c : Chip) (r : Nat × Chip) : Prop :=
  ∀ g, MayLeave i2cEePageSize ((madeBy c r).map ended) c.mem g → r.1 = eepromNoErro →
    ∀ k < num.toNat, g ((addr.toNat + k) % 65536) = buf k

/-- The next page write succeeds. -/
def pageWell (es : List PageEnd) : Bool := es.headD .done = .done

/-- The page writes that fail before the next one that succeeds. -/
def failures (es : List PageEnd) : Nat := (es.takeWhile (· ≠ .done)).length

/-- The ends that are left when a whole page has been tried until it was written, ten times at most. -/
def afterPage (es : List PageEnd) : List PageEnd := es.drop (min (failures es + 1) 10)

/-- One of `k` whole pages fails in all of its ten tries. -/
def losesPage : Nat → List PageEnd → Bool
  | 0, _ => false
  | k + 1, es => 10 ≤ failures es || losesPage k (afterPage es)

/-- The length of the buffer behind its first page. -/
def restLength (addr num : Word) : Nat := num.toNat - (i2cEePageSize - addr.toNat % i2cEePageSize)

/-- A whole page is lost, and nothing tells of it: the mutex was taken, the first page is written, and so are the bytes
behind the whole pages, if there are any. -/
def LostUnreported (taken : Bool) (addr num : Word) (es : List PageEnd) : Prop :=
  let pages := restLength addr num / i2cEePageSize
  taken = true ∧ pageWell es = true ∧ losesPage pages es.tail = true ∧
    (restLength addr num % i2cEePageSize = 0 ∨ pageWell (afterPage^[pages] es.tail) = true)

instance (taken : Bool) (addr num : Word) (es : List PageEnd) : Decidable (LostUnreported taken addr num es) :=
  inferInstanceAs (Decidable (_ ∧ _ ∧ _ ∧ (_ ∨ _)))

/-- The page write is for bytes of the buffer from `lo` to `hi`, at their addresses, and in one page; for all of the
page if it may have failed. -/
def Placed (a : Nat) (buf : Nat → Byte) (lo hi : Nat) (w : PageWrite) : Prop :=
  ∃ p m, lo ≤ p ∧ 0 < m ∧ p + m ≤ hi ∧ w.burst = ⟨(a + p) % 65536, slice buf p m⟩ ∧
    (a + p) % i2cEePageSize + m ≤ i2cEePageSize ∧ (w.ok = false → m = i2cEePageSize)

/-- On the way from `c` to `c'` the page writes `ws` were made. -/
structure Made (c c' : Chip) (ws : List PageWrite) : Prop where
  issued : c'.issued = c.issued ++ ws
  leaves : MayLeave i2cEePageSize (ws.map ended) c.mem c'.mem

/-- The page writes `ws` are those for the bytes of the buffer from `lo` to `hi`. If all is `well` in the end, the bytes
are there whatever the tries that failed left; if not, they may not be there. -/
structure Reports (a : Nat) (buf : Nat → Byte) (lo hi : Nat) (ws : List PageWrite) (well : Bool) : Prop where
  placed : ∀ w ∈ ws, Placed a buf lo hi w
  held : well = true → ∀ f g, MayLeave i2cEePageSize (ws.map ended) f g →
    ∀ j, lo ≤ j → j < hi → g ((a + j) % 65536) = buf j
  lost : well = false → ∀ f, ∃ g, MayLeave i2cEePageSize (ws.map ended) f g ∧
    ∃ j, lo ≤ j ∧ j < hi ∧ g ((a + j) % 65536) ≠ buf j

/-- `CONF_REG_EE1_ADDR` and the addresses of the other areas. -/
def areaAddr : EeArea → Nat
  | .ee1 => 0x0200
  | .ee2 => 0x0200 + 2 * (confRegMapNum + 1)
  | .ee3 => 0x0200 + 4 * (confRegMapNum + 1)
  | .fact => 0x0200 + 6 * (confRegMapNum + 1)

/-- Word `i` of an area; the low byte comes first. -/
def chipWord (f : Nat → Byte) (b : EeArea) (i : Nat) : Word :=
  word (f (areaAddr b + 2 * i + 1)) (f (areaAddr b + 2 * i))

/-- The chip holds the words of the banks. -/
def Stores (c : Chip) (e : Eeprom) : Prop := ∀ b, ∀ i ≤ confRegMapNum, e.bank b i = chipWord c.mem b i

/-- The message leaves the device that reported its registers as it is, and puts them into the user banks if no transfer
fails; and it gives the registers of the report to every other device. -/
structure RestoresReport (null : NullStore) (mem : Nat × Nat) (msg : ParamMsg) (d : Dev) : Prop where
  same : ∃ d₁, networkParameterSetParse null mem (some msg) d = .ok d₁ ∧
    (∀ i, isMapped i = true → d₁.conf i = d.conf i) ∧ (d.ee.bus = [] → Agree d₁.word d₁.ee)
  other : ∀ d', ∃ d₁, networkParameterSetParse null mem (some msg) d' = .ok d₁ ∧
    ∀ i, 36 ≤ i → i ≤ 115 → isMapped i = true → d₁.conf i = d.conf i

/-- The load that the flag and the jumper ask for. -/
def initState (startInit : Bool) (flag : Byte) : InitState :=
  if startInit then .debut
  else if flag = eeFlagLoadUsr then .usr
  else if flag = eeFlagLoadFact then .fact
  else if flag = 0x9b then .dft
  else .debut

/-- The banks before it read back right. -/
def Preceded (image : List Word) (e : Eeprom) : EeArea → Prop
  | .ee2 => Right image e .ee1
  | .ee3 => Right image e .ee1 ∧ Right image e .ee2
  | _ => True

/-- The EEPROM when the power is cut in a write of `v` to word `i`, after `k` of its words. -/
def cutAt (i : Nat) (v rd : Word) (k : Nat) (d : Dev) : Dev :=
  { d with ee := run Eeprom.put d.ee ((trippleWrites i v rd d.ee).take k) }

/-- The words of a factory bank that will be loaded are within the ranges, but for those that are cleared. -/
def FactorySound (e : Eeprom) : Prop :=
  xorSum (e.bank .fact) (confRegMapNum + 1) = 0#16 →
    ∀ i, isMapped i = true → i ∉ clearedRows → Allowed i (e.bank .fact i)

/-- The factory bank, if its words cancel out, holds the identity. -/
def FactoryIdentity (sid : Nat → Word) (e : Eeprom) : Prop :=
  xorSum (e.bank .fact) (confRegMapNum + 1) = 0#16 → ∀ i, InIdentity i → e.bank .fact i = sid i

end WM.Spec

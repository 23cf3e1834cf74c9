import WaterMaker.Framework.Lift
import WaterMaker.Spec.Lines

/-!
# The lines carry the bytes

What the functions of the driver do to a slave on the bus, whatever slave it is: `IIC_Send_Byte` and `IIC_Wait_Ack`
give it a byte (`i2cWriteByte_low`), `IIC_Read_Byte` takes one from it (`iicReadByte_low`), and `IIC_Start` and
`IIC_Stop` start and stop it. So a page write and a read are exchanges of bytes, after which the bus is free again
(`writeEEROMPage_free`, `i2cEeBufReadBsp_free`), and the buffer is written as if by bytes (`bufWrite_free`).
-/

namespace WM.Proof

open WM WM.Impl WM.Spec TwoWire

variable {τ : Type}

/-! ## Start and stop -/

section slave

variable {S : Peer τ} {s : τ} {l o : Bool}

/-- The bus is started again after a byte. -/
theorem iicStart_low {f : Bool} :
    iicStart S.device ⟨false, l, o, .takes s f 0 0⟩ = ⟨false, false, true, .takes (S.start s) true 0 0⟩ := rfl

/-- The bus is stopped in the ninth pulse, which the slave has left high. -/
theorem iicStop_answers {g : Bool} :
    iicStop S.device ⟨true, true, false, .answers s false g⟩ = ⟨true, true, true, .off (S.stop s)⟩ := rfl

/-! ## A byte to the slave -/

theorem sent_bit (b : Byte) {k : Nat} (hk : k < 8) : (((b <<< k) &&& 0x80) >>> 7 == 1) = b.getLsbD (7 - k) := by
  revert k
  revert b
  decide +kernel

/-- The loop of `IIC_Send_Byte`. -/
theorem sendBits_low (b : Byte) {f : Bool} :
    ∃ l', ((List.range 8).foldl (fun x _ => sendBit S.device x) (b, ⟨false, l, true, .takes s f 0 0⟩)).2 =
      ⟨false, l', true, .answers (S.take b s).2 (S.take b s).1 (f && b.getLsbD 0)⟩ := by
  rw [← Peer.fall_taken]
  refine (foldl_range_inv (fun k (x : Byte × Bus (Target τ)) => x.1 = b <<< k ∧
    ∃ l', x.2 = ⟨false, l', true, S.fall (.takes s f k (Peer.bitsOf b k))⟩) ?_ fun k x hk ih => ?_).2
  · exact ⟨(BitVec.shiftLeft_zero b).symm, l, rfl⟩
  · obtain ⟨hb, l', hw⟩ := ih
    refine ⟨?_, b.getLsbD (7 - k), ?_⟩
    · rw [sendBit, hb, BitVec.shiftLeft_add]
    · rw [sendBit, hb, hw, sent_bit b hk, Bus.setSda_low, Bus.setScl_rise_out, Bus.setScl_fall]
      show (⟨_, _, _, S.fall (S.rise _ _)⟩ : Bus (Target τ)) = _
      rw [Peer.taken_pulse hk]

theorem ackLoop_high {σ : Type} {D : Device σ} {w : Bus σ} (h : w.sda D = true) (n : Nat) :
    ackLoop D n w = (1, iicStop D w) := by
  induction n with
  | zero => rfl
  | succ n ih => rw [ackLoop, if_pos h, ih]

/-- The state of the slave when its acknowledgement is over. -/
def afterAck (S : Peer τ) (s : τ) (gives : Bool) : Target τ :=
  if gives then .gives s 0 (S.give s) else .takes s false 0 0

/-- `I2c_write_byte` gives a byte to the slave. If it is not acknowledged the bus is free. -/
theorem i2cWriteByte_low (b : Byte) {f : Bool} :
    i2cWriteByte S.device b ⟨false, l, o, .takes s f 0 0⟩ =
      if (S.take b s).1 then (1, ⟨false, true, false, afterAck S (S.take b s).2 (f && b.getLsbD 0)⟩)
      else (0, ⟨true, true, true, .off (S.stop (S.take b s).2)⟩) := by
  obtain ⟨l', hsend⟩ := sendBits_low (S := S) (s := s) (l := l) (f := f) b
  rw [i2cWriteByte, iicSendByte, Bus.setOut_low, Bus.setScl_low, hsend, iicWaitAck, Bus.setOut_low,
    Bus.setSda_low, Bus.setScl_rise_in]
  show (if (ackLoop S.device 251 ⟨true, true, false, .answers (S.take b s).2 (S.take b s).1 _⟩).1 = 0 then 1 else 0,
    (ackLoop S.device 251 ⟨true, true, false, .answers (S.take b s).2 (S.take b s).1 _⟩).2) = _
  cases hack : (S.take b s).1
  · rw [ackLoop_high rfl, iicStop_answers]
    rfl
  · rfl

/-- The bytes up to the first one that is not acknowledged. A first byte that asks for bytes is not among them. -/
theorem writeBytes_low (bs : List Byte) {f : Bool} (hhead : ∀ b ∈ bs.head?, (f && b.getLsbD 0) = false) :
    (∃ s' l' o' f', putBytes S bs s = (true, s') ∧
      writeBytes S.device bs ⟨false, l, o, .takes s f 0 0⟩ = (true, ⟨false, l', o', .takes s' f' 0 0⟩)) ∨
    ∃ s', putBytes S bs s = (false, s') ∧
      writeBytes S.device bs ⟨false, l, o, .takes s f 0 0⟩ = (false, ⟨true, true, true, .off s'⟩) := by
  induction bs generalizing s l o f with
  | nil => exact .inl ⟨s, l, o, f, rfl, rfl⟩
  | cons b bs ih =>
    rw [putBytes, writeBytes, i2cWriteByte_low, hhead b rfl]
    by_cases hack : (S.take b s).1 = true
    · rw [if_pos hack, if_pos hack]
      exact ih fun _ _ => rfl
    · rw [if_neg hack, if_neg hack]
      exact .inr ⟨_, rfl, rfl⟩

/-! ## A byte from the slave -/

theorem pushBit_eq (bits : Byte) (v : Bool) :
    (if v then (bits <<< 1) + 1 else bits <<< 1) = Peer.pushBit bits v := by
  cases v
  · exact (BitVec.add_zero _).symm
  · rfl

/-- The loop of `IIC_Read_Byte`, which ends with the clock high. -/
theorem readBits_low (b : Byte) :
    ∃ w, (List.range 8).foldl (fun x _ => readBit S.device x) ((0 : Byte), ⟨false, l, false, .gives s 0 b⟩) = (b, w) ∧
      w.setScl S.device false = ⟨false, l, false, .asks s⟩ := by
  obtain ⟨hbyte, hlow⟩ := foldl_range_inv (n := 8) (f := fun x _ => readBit S.device x)
    (s := ((0 : Byte), ⟨false, l, false, .gives s 0 b⟩))
    (fun k (x : Byte × Bus (Target τ)) => x.1 = Peer.bitsOf b k ∧
      x.2.setScl S.device false = ⟨false, l, false, if k = 8 then .asks s else .gives s k b⟩) ⟨rfl, rfl⟩
    fun k x hk ih => by
      obtain ⟨hacc, hw⟩ := ih
      rw [if_neg (by omega)] at hw
      have hlevel : (!(Target.gives s k b).holds) = b.getLsbD (7 - k) := Bool.not_not _
      rw [readBit, hw, Bus.setScl_rise_in, hacc]
      refine ⟨?_, ?_⟩
      · show (if (!(Target.gives s k b).holds) = true then _ else _) = _
        rw [hlevel, pushBit_eq, ← Peer.bitsOf_succ]
      · show (⟨false, l, false, S.fall (.gives s k b)⟩ : Bus (Target τ)) = _
        by_cases h7 : k = 7
        · rw [if_pos (by omega), Peer.fall, if_pos h7]
        · rw [if_neg (by omega), Peer.fall, if_neg h7]
  rw [Peer.bitsOf_eight] at hbyte
  exact ⟨_, Prod.ext hbyte rfl, hlow⟩

/-- `IIC_Read_Byte` takes a byte from the slave and tells it whether more are wanted. -/
theorem iicReadByte_low (ack : Bool) (b : Byte) :
    iicReadByte S.device ack ⟨false, l, o, .gives s 0 b⟩ =
      (b, ⟨false, !ack, true,
        if ack then .gives (S.told true s) 0 (S.give (S.told true s)) else .off (S.told false s)⟩) := by
  obtain ⟨w, hloop, hlow⟩ := readBits_low (S := S) (s := s) (l := l) b
  rw [iicReadByte, Bus.setOut_low, hloop]
  cases ack
  · show (b, iicNack S.device w) = _
    rw [iicNack, iicAckLevel, hlow]
    rfl
  · show (b, iicAck S.device w) = _
    rw [iicAck, iicAckLevel, hlow]
    rfl

theorem readBytes_low (n : Nat) (b : Byte) :
    ∃ l', readBytes S.device n ⟨false, l, o, .gives s 0 b⟩ =
      ((getBytes S n b s).1, ⟨false, l', true, .off (getBytes S n b s).2⟩) := by
  induction n generalizing s l o b with
  | zero =>
    refine ⟨true, ?_⟩
    rw [readBytes, iicReadByte_low]
    rfl
  | succ n ih =>
    rw [readBytes, iicReadByte_low]
    obtain ⟨l', hrest⟩ := ih (s := S.told true s) (l := false) (o := true) (S.give (S.told true s))
    refine ⟨l', ?_⟩
    exact congrArg (fun r : List Byte × Bus (Target τ) => (b :: r.1, r.2)) hrest

end slave

/-! ## Transfers -/

theorem hiByte_eq (addr : Word) : (addr >>> 8).setWidth 8 = hiByte addr := by
  ext i hi
  simp [hiByte]

theorem loByte_eq (addr : Word) : (addr &&& 0x00ff).setWidth 8 = loByte addr := by
  have hmask : (0x00ff : Word).setWidth 8 = BitVec.allOnes 8 := by decide
  rw [BitVec.setWidth_and, hmask, BitVec.and_allOnes]
  ext i hi
  simp [loByte]

section part

variable {E : EePart τ}

theorem header_head (addr : Word) (bs : List Byte) :
    ∀ b ∈ (header addr ++ bs).head?, (true && b.getLsbD 0) = false := by
  intro b hb
  have h : (0xae : Byte) = b := Option.some.inj hb
  rw [← h]
  decide

/-- A page is written as an exchange of bytes, after which the bus is free. -/
theorem writeEEROMPage_free (buf : Nat → Byte) (pos : Nat) (addr : Word) (num : Byte) (s : τ) :
    E.writeEEROMPage buf pos addr num (freeBus E s) =
      ((pageTo E addr (slice buf pos num.toNat) s).1, freeBus E (pageTo E addr (slice buf pos num.toNat) s).2) := by
  have hstart : iicStart E.slave.device (E.wpEnable (freeBus E s)) =
      ⟨false, false, true, .takes (E.slave.start (E.protect false s)) true 0 0⟩ := rfl
  have hheader : (slaveAddr &&& 0xFE) :: hiByte addr :: loByte addr :: slice buf pos num.toNat =
      header addr ++ slice buf pos num.toNat := rfl
  rw [EePart.writeEEROMPage, hiByte_eq, loByte_eq, hstart, hheader]
  obtain ⟨s', l', o', f', hput, hrun⟩ | ⟨s', hput, hrun⟩ :=
    writeBytes_low (S := E.slave) (s := E.slave.start (E.protect false s)) (l := false) (o := true)
      (header addr ++ slice buf pos num.toNat) (header_head addr _)
  · rw [pageTo, hput, hrun]
    rfl
  · rw [pageTo, hput, hrun]
    rfl

/-- The byte that asks for bytes: the slave gives the first one as soon as it has acknowledged it. -/
theorem readBuffer_low (num : Word) {s : τ} {l o f : Bool} :
    E.readBuffer num ⟨false, l, o, .takes s f 0 0⟩ =
      ((readOn E (num.toNat - 1) s).1, freeBus E (readOn E (num.toNat - 1) s).2) := by
  have hask := i2cWriteByte_low (S := E.slave) (s := E.slave.start s) (l := false) (o := true) (0xaf : Byte)
    (f := true)
  delta EePart.readBuffer
  dsimp only
  rw [show slaveAddr ||| 0x01 = (0xaf : Byte) from rfl, iicStart_low, readOn, putBytes]
  by_cases hack : (E.slave.take 0xaf (E.slave.start s)).1 = true
  · rw [if_pos hack] at hask ⊢
    have hrun : writeBytes E.slave.device [0xaf]
        (⟨false, false, true, .takes (E.slave.start s) true 0 0⟩ : Bus (Target τ)) =
          (true, ⟨false, true, false, .gives (E.slave.take 0xaf (E.slave.start s)).2 0
            (E.slave.give (E.slave.take 0xaf (E.slave.start s)).2)⟩) := by
      rw [writeBytes, hask]
      rfl
    simp only [hrun]
    obtain ⟨l', hread⟩ := readBytes_low (S := E.slave) (s := E.protect true (E.slave.take 0xaf (E.slave.start s)).2)
      (l := true) (o := false) (num.toNat - 1) (E.slave.give (E.slave.take 0xaf (E.slave.start s)).2)
    exact congrArg (fun r : List Byte × E.Lines => ((eepromNoErro, r.1), iicStop E.slave.device r.2)) hread
  · rw [if_neg hack] at hask ⊢
    have hrun : writeBytes E.slave.device [0xaf]
        (⟨false, false, true, .takes (E.slave.start s) true 0 0⟩ : Bus (Target τ)) =
          (false, ⟨true, true, true, .off (E.slave.stop (E.slave.take 0xaf (E.slave.start s)).2)⟩) := by
      rw [writeBytes, hask]
      rfl
    simp only [hrun]
    rfl

/-- The bytes are read as the part gives them, and the bus is free. -/
theorem i2cEeBufReadBsp_free (addr num : Word) (s : τ) :
    E.i2cEeBufReadBsp addr num (freeBus E s) =
      ((readFrom E addr (num.toNat - 1) s).1, freeBus E (readFrom E addr (num.toNat - 1) s).2) := by
  have hstart : iicStart E.slave.device (E.wpEnable (freeBus E s)) =
      ⟨false, false, true, .takes (E.slave.start (E.protect false s)) true 0 0⟩ := rfl
  have hbytes : [slaveAddr &&& 0xFE, hiByte addr, loByte addr] = header addr := rfl
  delta EePart.i2cEeBufReadBsp
  dsimp only
  rw [hiByte_eq, loByte_eq, hbytes, hstart, readFrom]
  obtain ⟨s', l', o', f', hput, hrun⟩ | ⟨s', hput, hrun⟩ :=
    writeBytes_low (S := E.slave) (s := E.slave.start (E.protect false s)) (l := false) (o := true)
      (header addr) (header_head addr [])
  · simp only [hput, hrun]
    exact readBuffer_low num
  · simp only [hput, hrun]
    rfl

/-! ## Buffers -/

/-- A buffer is written alike on two levels, if a page is. -/
theorem bufWrite_rel {σ σ' : Type} (L : Lifts σ σ') {P : Pager σ} {Q : Pager σ'}
    (hpage : ∀ buf pos addr num, L.rel (P.writeEEROMPage buf pos addr num) (Q.writeEEROMPage buf pos addr num))
    (hdelay : ∀ n, L.rel (P.rtThreadDelay n) (Q.rtThreadDelay n)) (buf : Nat → Byte) (addr num : Word) :
    L.rel (P.i2cEeBufWriteBsp buf addr num) (Q.i2cEeBufWriteBsp buf addr num) := by
  have htry : ∀ pos addr cnt, L.rel (P.tryPage buf pos addr cnt) (Q.tryPage buf pos addr cnt) := by
    intro pos addr cnt
    induction cnt with
    | zero => exact L.pure ()
    | succ cnt ih => exact L.bind (hpage ..) fun ok => L.ite _ (L.pure ()) (L.bind (hdelay 1) fun _ => ih)
  have hpages : ∀ n x, L.rel (P.writePages buf n x) (Q.writePages buf n x) := by
    intro n
    induction n with
    | zero => exact fun x => L.pure x
    | succ n ih => exact fun x => L.bind (htry ..) fun _ => ih _
  have hlast : ∀ x, L.rel (P.writeLast buf x) (Q.writeLast buf x) := fun x =>
    L.bind (hpage ..) fun ok => L.ite _ (L.bind (hdelay _) fun _ => L.pure _) (L.pure _)
  have hrest : ∀ x, L.rel (P.writeRest buf x) (Q.writeRest buf x) := fun x =>
    L.bind (hpages ..) fun y => L.bind (hdelay _) fun _ => L.ite _ (L.pure _) (hlast y)
  exact L.bind (hpage ..) fun ok =>
    L.ite _ (L.ite _ (L.bind (hdelay _) fun _ => L.pure _) (hrest _)) (L.pure _)

/-- A buffer is written on the lines as it is by bytes. -/
theorem bufWrite_free (buf : Nat → Byte) (addr num : Word) (s : τ) :
    E.pager.i2cEeBufWriteBsp buf addr num (freeBus E s) =
      (((bytePager E).i2cEeBufWriteBsp buf addr num s).1,
        freeBus E ((bytePager E).i2cEeBufWriteBsp buf addr num s).2) :=
  bufWrite_rel (Lifts.hom (freeBus E)) (P := E.pager) (Q := bytePager E) (writeEEROMPage_free (E := E))
    (fun _ _ => rfl) buf addr num s

end part

end WM.Proof

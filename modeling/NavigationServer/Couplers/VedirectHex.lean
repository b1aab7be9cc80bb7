/-
NavigationServer.Couplers.VedirectHex — the HEX commands to a VE.Direct device.

`sendHexCmd` writes a command into the send buffer of the thread, which is kept
from one command to the next, and hands the front of it to the serial line. A
parameter is a length and a value, and no length comes twice, as the parameters
are a dictionary by length. An exception leaves in the buffer what was written
so far. What the serial line makes of the frame is left out.

`never_sendsFrame`: no command is answered by a valid frame, because the last
byte is 16 and not a newline. `legal_run` says what comes instead of each command
of a run: the checksum is on four digits of which the first two are sent
(`sendHexCmd_bare`), and a parameter with a byte ends in an `IndexError`, since the
loop over its bytes never counts (`sendHexCmd_parameters`).
-/
import NavigationServer.Couplers.VedirectTheorems
import NavigationServer.Lib.Hex

namespace NavigationServer.Couplers

open NavigationServer.Lib

/-! ## 1. The command -/

/-- The big-endian bytes of a number. -/
def bigEndian : Nat → Nat → Bytes
  | 0, _ => []
  | length + 1, value => bigEndian length (value / 256) ++ [UInt8.ofNat (value % 256)]

/-- `value.to_bytes(length, 'big')`. -/
def toBytes (value length : Int) : Except Exn Bytes :=
  if length < 0 then .error .valueError
  else if value < 0 ∨ 256 ^ length.toNat ≤ value then .error .overflowError
  else .ok (bigEndian length.toNat value.toNat)

/-- A call of `send_hex_cmd`. -/
structure HexCommand where
  cmd : Int
  parameters : List (Int × Int)
  nodup : (parameters.map Prod.fst).Nodup

namespace Vedirect

/-- `_hex_send_buffer` of a new thread. -/
def hexSendBuffer : Bytes := hexmarker :: List.replicate 31 0

/-- The code of the command. The branch behind the digits is open below. -/
def hexCmd (cmd : Int) : Except Exn Int :=
  if 0 < cmd ∧ cmd < 10 then .ok (0x30 + cmd)
  else if cmd < 17 then .ok (0x31 + cmd)
  else .error (.vedirect "Illegal HEX command")

/-- `buffer[i] = value`. -/
def assign (buffer : Bytes) (i : Nat) (value : Int) : Except Exn Bytes :=
  if value < 0 ∨ 256 ≤ value then .error .valueError
  else
    match setItem buffer i (UInt8.ofNat value.toNat) with
    | none => .error .indexError
    | some buffer => .ok buffer

/-- The buffer, how far it is written, and the checksum. -/
structure HexSend where
  buffer : Bytes
  cmdSize : Nat
  checksum : Int

namespace HexSend

/-- The buffer from `cmd_size` on becomes `text`. -/
def append (s : HexSend) (text : Bytes) (size : Nat) : HexSend :=
  { s with
    buffer := setSlice s.buffer s.cmdSize s.buffer.length text
    cmdSize := s.cmdSize + size }

/-- The loop over the bytes of a parameter. `nb_nibble_count` stays 0, so the
loop runs as long as there are two bytes more. -/
def subtractBytes (length : Int) : Bytes → Int → Except Exn Int
  | high :: low :: bytesVal, checksum =>
      if 0 < length then subtractBytes length bytesVal (checksum - (high.toNat * 16 + low.toNat))
      else .ok checksum
  | _, checksum => if 0 < length then .error .indexError else .ok checksum

def putParameter (s : HexSend) (length value : Int) : Except Exn HexSend := do
  let bytesVal ← toBytes value length
  let checksum ← subtractBytes length bytesVal s.checksum
  return { s with checksum := checksum }.append (hexBytes .upper bytesVal) (length * 2).toNat

/-- The parameters in their order, up to one that raises. -/
def putParameters : List (Int × Int) → HexSend → Option Exn × HexSend
  | [], s => (none, s)
  | (length, value) :: parameters, s =>
      match s.putParameter length value with
      | .error e => (some e, s)
      | .ok s => putParameters parameters s

/-- `checksum.to_bytes(2, 'big')` and the end of the frame. -/
def finish (s : HexSend) : Except Exn Bytes × Bytes :=
  match toBytes s.checksum 2 with
  | .error e => (.error e, s.buffer)
  | .ok hexChecksum =>
      let s := s.append (hexBytes .upper hexChecksum) 2
      match assign s.buffer s.cmdSize 0x10 with
      | .error e => (.error e, s.buffer)
      | .ok buffer => (.ok (slice buffer 0 (s.cmdSize + 1)), buffer)

end HexSend

/-- What goes to the serial line, and the buffer behind it. -/
def sendHexCmd (buffer : Bytes) (command : HexCommand) : Except Exn Bytes × Bytes :=
  match hexCmd command.cmd with
  | .error e => (.error e, buffer)
  | .ok code =>
      match assign buffer 1 code with
      | .error e => (.error e, buffer)
      | .ok buffer =>
          match HexSend.putParameters command.parameters ⟨buffer, 2, 0x55 - command.cmd⟩ with
          | (some e, s) => (.error e, s.buffer)
          | (none, s) => s.finish

/-- The thread as a sender of commands. -/
def hexSender : Machine Bytes HexCommand (Except Exn Bytes) where
  step := sendHexCmd

end Vedirect

/-! ## 2. Valid frames -/

open Vedirect

namespace HexCommand

variable (command : HexCommand)

/-- The bytes of the parameters. -/
def payload : Bytes := command.parameters.flatMap (fun p => bigEndian p.1.toNat p.2.toNat)

/-- A command, and parameters that fit their lengths and the buffer. -/
structure IsLegal : Prop where
  pos : 1 ≤ command.cmd
  le : command.cmd ≤ 15
  fits : ∀ p ∈ command.parameters, 0 ≤ p.1 ∧ 0 ≤ p.2 ∧ p.2 < 256 ^ p.1.toNat
  room : 5 + 2 * command.payload.length ≤ hexSendBuffer.length

/-- The frame for a command, as the protocol has it. -/
def IsFrame (frame : Bytes) : Prop :=
  ∃ checksum : UInt8,
    (command.cmd + byteSum command.payload + checksum.toNat) % 256 = 0x55 ∧
    frame = hexmarker :: hexNumber .upper 1 command.cmd.toNat ++ hexBytes .upper command.payload
      ++ hexByte .upper checksum ++ [header2]

end HexCommand

/-- The call writes the frame of its command. -/
def SendsFrame (mv : Move Bytes HexCommand (Except Exn Bytes)) : Prop :=
  ∃ frame, mv.output = .ok frame ∧ mv.input.IsFrame frame

/-! ## 3. The last byte -/

theorem assign_ok {buffer buffer' : Bytes} {i : Nat} {value : Int}
    (h : assign buffer i value = .ok buffer') :
    i < buffer.length ∧ buffer' = buffer.set i (UInt8.ofNat value.toNat) := by
  rw [assign] at h
  split at h
  · cases h
  · have hi : ¬ (i : Int) < 0 := by omega
    simp only [setItem, if_neg hi, Int.toNat_natCast] at h
    split at h
    · cases h
    · rename_i hset
      split at hset
      · rename_i hlt
        simp only [Option.some.injEq] at hset
        simp only [Except.ok.injEq] at h
        exact ⟨by omega, by rw [← h, ← hset]⟩
      · cases hset

/-- The front of a list, up to the place that was assigned to. -/
theorem getLast_slice_set {buffer : Bytes} {i : Nat} (hi : i < buffer.length) (value : UInt8) :
    (slice (buffer.set i value) 0 ((i : Int) + 1)).getLast? = some value := by
  have hlt : i < (buffer.set i value).length := by simpa using hi
  rw [show (i : Int) + 1 = ((i + 1 : Nat) : Int) from rfl, slice_zero, List.take_succ_eq_append_getElem hlt,
    List.getLast?_concat, List.getElem_set_self]

/-- What is sent ends with the byte that was put at its end. -/
theorem finish_ok {s : HexSend} {frame : Bytes} (h : s.finish.1 = .ok frame) :
    frame.getLast? = some 0x10 := by
  rw [HexSend.finish] at h
  split at h
  · cases h
  · simp only at h
    split at h
    · cases h
    · rename_i hassign
      obtain ⟨hlt, hbuf⟩ := assign_ok hassign
      simp only [Except.ok.injEq] at h
      rw [← h, hbuf]
      exact getLast_slice_set hlt _

theorem sendHexCmd_ok {buffer frame : Bytes} {command : HexCommand}
    (h : (sendHexCmd buffer command).1 = .ok frame) : frame.getLast? = some 0x10 := by
  rw [sendHexCmd] at h
  split at h
  · cases h
  · split at h
    · cases h
    · split at h
      · cases h
      · exact finish_ok h

theorem HexCommand.IsFrame.getLast {command : HexCommand} {frame : Bytes}
    (h : command.IsFrame frame) : frame.getLast? = some header2 := by
  obtain ⟨checksum, -, rfl⟩ := h
  exact List.getLast?_concat

/-! ## 4. What is sent instead -/

/-- The loop over the bytes of a parameter ends behind its last byte. -/
theorem subtractBytes_pos {length : Int} (h : 0 < length) (bytesVal : Bytes) (checksum : Int) :
    HexSend.subtractBytes length bytesVal checksum = .error .indexError := by
  induction bytesVal, checksum using HexSend.subtractBytes.induct length with
  | case1 checksum high low bytesVal _ ih => rw [HexSend.subtractBytes, if_pos h, ih]
  | case2 checksum high low bytesVal hneg => exact absurd h hneg
  | case3 bytesVal checksum _ hshort => rw [HexSend.subtractBytes.eq_2 _ _ _ hshort, if_pos h]
  | case4 bytesVal checksum hneg _ => exact absurd h hneg

theorem toBytes_fits {value length : Int} (hlength : 0 ≤ length) (hvalue : 0 ≤ value)
    (hlt : value < 256 ^ length.toNat) :
    toBytes value length = .ok (bigEndian length.toNat value.toNat) := by
  rw [toBytes, if_neg (by omega), if_neg (by omega)]

/-- A parameter with a byte is not sent. -/
theorem putParameter_pos {p : Int × Int} (hfits : 0 ≤ p.1 ∧ 0 ≤ p.2 ∧ p.2 < 256 ^ p.1.toNat)
    (hpos : 0 < p.1) (s : HexSend) : s.putParameter p.1 p.2 = .error .indexError := by
  simp only [HexSend.putParameter, toBytes_fits hfits.1 hfits.2.1 hfits.2.2, subtractBytes_pos hpos]
  rfl

/-- A parameter without bytes cuts the buffer off. -/
theorem putParameter_zero {p : Int × Int} (hfits : 0 ≤ p.1 ∧ 0 ≤ p.2 ∧ p.2 < 256 ^ p.1.toNat)
    (hzero : p.1 = 0) (s : HexSend) :
    s.putParameter p.1 p.2 = .ok { s with buffer := s.buffer.take s.cmdSize } := by
  simp only [HexSend.putParameter, toBytes_fits hfits.1 hfits.2.1 hfits.2.2]
  have hloop : HexSend.subtractBytes 0 [] s.checksum = .ok s.checksum := rfl
  simp only [hzero, Int.toNat_zero, bigEndian, HexSend.append, setSlice_to_end]
  simp [hloop, hexBytes, bind, Except.bind, pure, Except.pure]

/-- Parameters without bytes. -/
theorem putParameters_zero {parameters : List (Int × Int)}
    (hfits : ∀ p ∈ parameters, 0 ≤ p.1 ∧ 0 ≤ p.2 ∧ p.2 < 256 ^ p.1.toNat)
    (hzero : ∀ p ∈ parameters, p.1 = 0) (s : HexSend) :
    ∃ buffer, HexSend.putParameters parameters s = (none, { s with buffer := buffer }) ∧
      buffer.take s.cmdSize = s.buffer.take s.cmdSize := by
  induction parameters generalizing s with
  | nil => exact ⟨s.buffer, rfl, rfl⟩
  | cons p parameters ih =>
    simp only [List.forall_mem_cons] at hfits hzero
    obtain ⟨buffer, hrun, htake⟩ := ih hfits.2 hzero.2 { s with buffer := s.buffer.take s.cmdSize }
    refine ⟨buffer, ?_, ?_⟩
    · rw [HexSend.putParameters, putParameter_zero hfits.1 hzero.1]
      exact hrun
    · rw [htake, List.take_take, Nat.min_self]

/-- The parameters up to the first one with a byte. -/
theorem putParameters_pos {parameters : List (Int × Int)}
    (hfits : ∀ p ∈ parameters, 0 ≤ p.1 ∧ 0 ≤ p.2 ∧ p.2 < 256 ^ p.1.toNat)
    (hpos : ∃ p ∈ parameters, 0 < p.1) (s : HexSend) :
    (HexSend.putParameters parameters s).1 = some .indexError := by
  induction parameters generalizing s with
  | nil => simp at hpos
  | cons p parameters ih =>
    have hp := hfits p (List.mem_cons_self ..)
    rw [HexSend.putParameters]
    by_cases h : 0 < p.1
    · rw [putParameter_pos hp h]
    · rw [putParameter_zero hp (by omega)]
      refine ih (fun q hq => hfits q (List.mem_cons_of_mem _ hq)) ?_ _
      obtain ⟨q, hq, hqpos⟩ := hpos
      rcases List.mem_cons.mp hq with rfl | hq
      · exact absurd hqpos h
      · exact ⟨q, hq, hqpos⟩

theorem hexCmd_legal {cmd : Int} (h1 : 1 ≤ cmd) (h15 : cmd ≤ 15) :
    hexCmd cmd = .ok ((if cmd < 10 then 0x30 else 0x31) + cmd) := by
  rw [hexCmd]
  split <;> split <;> simp_all <;> omega

theorem assign_eq {buffer : Bytes} {i : Nat} {value : Int} (hi : i < buffer.length)
    (h0 : 0 ≤ value) (h256 : value < 256) :
    assign buffer i value = .ok (buffer.set i (UInt8.ofNat value.toNat)) := by
  have hlt : (0 : Int) ≤ i ∧ (i : Int) < buffer.length := by omega
  rw [assign, if_neg (by omega)]
  simp only [setItem, if_neg (show ¬ (i : Int) < 0 by omega), if_pos hlt, Int.toNat_natCast]

/-- The end of a frame: the first byte of the checksum is 0 and comes first. -/
theorem finish_eq {s : HexSend} (hsize : s.cmdSize ≤ s.buffer.length) (h0 : 0 ≤ s.checksum)
    (h256 : s.checksum < 256) :
    s.finish.1 = .ok (s.buffer.take s.cmdSize ++ [48, 48, 16]) := by
  obtain ⟨low, hbytes⟩ : ∃ low, toBytes s.checksum 2 = .ok [0, low] := by
    refine ⟨UInt8.ofNat (s.checksum.toNat % 256), ?_⟩
    have hhigh : s.checksum.toNat / 256 = 0 := by omega
    rw [toBytes_fits (by decide) h0 (Int.lt_trans h256 (by decide))]
    simp [bigEndian, hhigh]
  have hlen : (s.buffer.take s.cmdSize).length = s.cmdSize := by simpa using hsize
  obtain ⟨a, b, hlow⟩ : ∃ a b, hexByte .upper low = [a, b] := ⟨_, _, rfl⟩
  have hbuf : (s.append (hexBytes .upper [0, low]) 2).buffer
      = s.buffer.take s.cmdSize ++ [48, 48, a, b] := by
    rw [HexSend.append, setSlice_to_end, hexBytes, List.flatMap_cons, List.flatMap_singleton, hlow]
    rfl
  have hassign : assign (s.append (hexBytes .upper [0, low]) 2).buffer (s.cmdSize + 2) 0x10
      = .ok (s.buffer.take s.cmdSize ++ [48, 48, 16, b]) := by
    rw [hbuf, assign_eq (by simp [hlen]) (by decide) (by decide), List.set_append_right _ _ (by omega),
      hlen, Nat.add_sub_cancel_left]
    rfl
  have htake : (s.buffer.take s.cmdSize ++ [48, 48, 16, b]).take (s.cmdSize + 2 + 1)
      = s.buffer.take s.cmdSize ++ [48, 48, 16] := by
    rw [List.take_append, List.take_of_length_le (by omega), hlen,
      show s.cmdSize + 2 + 1 - s.cmdSize = 3 by omega]
    rfl
  rw [HexSend.finish, hbytes]
  simp only [show (s.append (hexBytes .upper [0, low]) 2).cmdSize = s.cmdSize + 2 from rfl, hassign]
  rw [show ((s.cmdSize + 2 : Nat) : Int) + 1 = ((s.cmdSize + 2 + 1 : Nat) : Int) from rfl,
    slice_zero, htake]

/-- The front of the buffer, as the commands so far left it. -/
def HexReady (buffer : Bytes) : Prop := ∃ code rest, buffer = hexmarker :: code :: rest

/-- The code that the buffer gets for a command of at most 15. -/
def codeOf (cmd : Int) : UInt8 := UInt8.ofNat ((if cmd < 10 then 0x30 else 0x31) + cmd).toNat

/-- The buffer with the command in it. -/
def begun (rest : Bytes) (cmd : Int) : HexSend := ⟨hexmarker :: codeOf cmd :: rest, 2, 0x55 - cmd⟩

theorem sendHexCmd_legal {command : HexCommand} (hlegal : command.IsLegal) (code : UInt8)
    (rest : Bytes) :
    sendHexCmd (hexmarker :: code :: rest) command
      = match HexSend.putParameters command.parameters (begun rest command.cmd) with
        | (some e, s) => (.error e, s.buffer)
        | (none, s) => s.finish := by
  have h1 := hlegal.pos
  have h15 := hlegal.le
  rw [sendHexCmd, hexCmd_legal h1 h15]
  simp only
  rw [assign_eq (by simp) (by split <;> omega) (by split <;> omega)]
  rfl

/-- A command without a byte of parameters. -/
theorem sendHexCmd_bare {buffer : Bytes} {command : HexCommand} (hready : HexReady buffer)
    (hlegal : command.IsLegal) (hzero : ∀ p ∈ command.parameters, p.1 = 0) :
    (sendHexCmd buffer command).1 = .ok [hexmarker, codeOf command.cmd, 48, 48, 16] := by
  obtain ⟨code, rest, rfl⟩ := hready
  have h1 := hlegal.pos
  have h15 := hlegal.le
  obtain ⟨buffer, hrun, htake⟩ := putParameters_zero hlegal.fits hzero (begun rest command.cmd)
  change buffer.take 2 = [hexmarker, codeOf command.cmd] at htake
  have hfront : 2 ≤ buffer.length := by
    have hlen := congrArg List.length htake
    rw [List.length_take, List.length_cons, List.length_singleton] at hlen
    omega
  rw [sendHexCmd_legal hlegal, hrun]
  simp only [begun]
  rw [finish_eq hfront (by simp only; omega) (by simp only; omega), htake]
  rfl

/-- A command with a byte of parameters. -/
theorem sendHexCmd_parameters {buffer : Bytes} {command : HexCommand} (hready : HexReady buffer)
    (hlegal : command.IsLegal) (hpos : ∃ p ∈ command.parameters, 0 < p.1) :
    (sendHexCmd buffer command).1 = .error .indexError := by
  obtain ⟨code, rest, rfl⟩ := hready
  have hrun := putParameters_pos hlegal.fits hpos (begun rest command.cmd)
  rw [sendHexCmd_legal hlegal]
  split <;> rename_i hput <;> rw [hput] at hrun <;> cases hrun
  rfl

theorem hexReady_assign {buffer buffer' : Bytes} {i : Nat} {value : Int} (h : HexReady buffer)
    (hi : 0 < i) (hassign : assign buffer i value = .ok buffer') : HexReady buffer' := by
  obtain ⟨code, rest, rfl⟩ := h
  obtain ⟨-, rfl⟩ := assign_ok hassign
  match i, hi with
  | 1, _ => exact ⟨_, rest, rfl⟩
  | i + 2, _ => exact ⟨code, _, rfl⟩

theorem hexReady_append {s : HexSend} (h : HexReady s.buffer) (hsize : 2 ≤ s.cmdSize)
    (text : Bytes) (size : Nat) : HexReady (s.append text size).buffer := by
  obtain ⟨code, rest, hbuf⟩ := h
  rw [HexSend.append, setSlice_to_end, hbuf]
  match hn : s.cmdSize, hsize with
  | n + 2, _ => exact ⟨code, rest.take n ++ text, rfl⟩

theorem putParameter_ok {s s' : HexSend} {length value : Int}
    (h : s.putParameter length value = .ok s') :
    ∃ bytesVal checksum, s' = ({ s with checksum := checksum } : HexSend).append
      (hexBytes .upper bytesVal) (length * 2).toNat := by
  rw [HexSend.putParameter] at h
  cases hbytes : toBytes value length with
  | error e => simp [hbytes, bind, Except.bind] at h
  | ok bytesVal =>
    cases hloop : HexSend.subtractBytes length bytesVal s.checksum with
    | error e => simp [hbytes, hloop, bind, Except.bind] at h
    | ok checksum =>
      simp only [hbytes, hloop, bind, Except.bind, pure, Except.pure, Except.ok.injEq] at h
      exact ⟨bytesVal, checksum, h.symm⟩

theorem hexReady_putParameters {s : HexSend} (h : HexReady s.buffer) (hsize : 2 ≤ s.cmdSize)
    (parameters : List (Int × Int)) :
    HexReady (HexSend.putParameters parameters s).2.buffer ∧
      2 ≤ (HexSend.putParameters parameters s).2.cmdSize := by
  induction parameters generalizing s with
  | nil => exact ⟨h, hsize⟩
  | cons p parameters ih =>
    rw [HexSend.putParameters]
    cases hput : s.putParameter p.1 p.2 with
    | error e => exact ⟨h, hsize⟩
    | ok s' =>
      obtain ⟨bytesVal, checksum, rfl⟩ := putParameter_ok hput
      exact ih (hexReady_append (s := { s with checksum := checksum }) h hsize _ _)
        (Nat.le_trans hsize (Nat.le_add_right _ _))

theorem hexReady_finish {s : HexSend} (h : HexReady s.buffer) (hsize : 2 ≤ s.cmdSize) :
    HexReady s.finish.2 := by
  rw [HexSend.finish]
  split
  · exact h
  · have happend := fun text => hexReady_append h hsize text 2
    simp only
    split
    · exact happend _
    · rename_i hassign
      exact hexReady_assign (happend _) (Nat.lt_of_lt_of_le (by decide) (Nat.le_add_left _ _)) hassign

/-- Every command leaves the front of the buffer as it should be, also one that
raises. -/
theorem hexReady_step {buffer : Bytes} (h : HexReady buffer) (command : HexCommand) :
    HexReady (hexSender.step buffer command).2 := by
  change HexReady (sendHexCmd buffer command).2
  rw [sendHexCmd]
  split
  · exact h
  · split
    · exact h
    · rename_i code _ buffer' hassign
      have hready := hexReady_assign h (by decide) hassign
      have hput := hexReady_putParameters (s := ⟨buffer', 2, 0x55 - command.cmd⟩) hready
        (Nat.le_refl 2) command.parameters
      split <;> rename_i hs <;> rw [hs] at hput
      · exact hput.1
      · exact hexReady_finish hput.1 hput.2

theorem hexReady_new : HexReady hexSendBuffer := ⟨0, List.replicate 30 0, rfl⟩

/-- What comes of every legal command of a run. -/
theorem legal_run (commands : List HexCommand) :
    ∀ mv ∈ hexSender.trace hexSendBuffer commands, mv.input.IsLegal →
      mv.output = if ∀ p ∈ mv.input.parameters, p.1 = 0 then
          .ok [hexmarker, codeOf mv.input.cmd, 48, 48, 16]
        else .error .indexError := by
  intro mv hmv hlegal
  have hready := (hexSender.trace_invariant HexReady (fun _ _ => True)
    (fun _ command h _ => hexReady_step h command) hexReady_new commands (fun _ _ => trivial) mv
    hmv).1
  have hstep : (sendHexCmd mv.pre mv.input).1 = mv.output :=
    congrArg Prod.fst (hexSender.step_of_mem_trace hmv)
  rw [← hstep]
  split
  · rename_i hzero
    exact sendHexCmd_bare hready hlegal hzero
  · rename_i hsome
    simp only [not_forall] at hsome
    obtain ⟨p, hp, hne⟩ := hsome
    have hfits := (hlegal.fits p hp).1
    exact sendHexCmd_parameters hready hlegal ⟨p, hp, by omega⟩

/-- **No frame is valid**, whatever was sent before. -/
theorem never_sendsFrame (commands : List HexCommand) :
    ∀ mv ∈ hexSender.trace hexSendBuffer commands, ¬ SendsFrame mv := by
  rintro mv hmv ⟨frame, hout, hframe⟩
  have hstep := hexSender.step_of_mem_trace hmv
  have hok : (sendHexCmd mv.pre mv.input).1 = .ok frame := by
    rw [← hout]
    exact congrArg Prod.fst hstep
  have hlast := sendHexCmd_ok hok
  rw [hframe.getLast] at hlast
  exact absurd hlast (by decide)

theorem never_sendsFrame_one :
    ∃ mv, hexSender.trace hexSendBuffer [⟨1, [], List.nodup_nil⟩] = [mv] ∧ ¬ SendsFrame mv :=
  ⟨_, rfl, never_sendsFrame [⟨1, [], List.nodup_nil⟩] _ List.mem_cons_self⟩

/-- The command 1 to a new thread. -/
theorem not_sendsFrame :
    ¬ ∀ commands, ∀ mv ∈ hexSender.trace hexSendBuffer commands,
      mv.input.IsLegal → SendsFrame mv := by
  intro h
  have hlegal : HexCommand.IsLegal ⟨1, [], List.nodup_nil⟩ := ⟨by decide, by decide, by simp, by decide⟩
  obtain ⟨frame, hout, hframe⟩ := h [⟨1, [], List.nodup_nil⟩] _ (List.mem_cons_self ..) hlegal
  have hsent := legal_run [⟨1, [], List.nodup_nil⟩] _ (List.mem_cons_self ..) hlegal
  rw [if_pos (by simp)] at hsent
  cases hout.symm.trans hsent
  exact absurd hframe.getLast (by decide)

end NavigationServer.Couplers

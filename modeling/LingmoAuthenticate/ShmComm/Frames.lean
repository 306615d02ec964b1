import Mathlib.Data.List.Forall2
import Mathlib.Data.Vector.Defs
import LingmoAuthenticate.ShmComm.Lock
import LingmoAuthenticate.Lib.Stream
import LingmoAuthenticate.Lib.Text

/-!
# The lengths that are sent over the socket

`shmn_write` puts the data into the shared memory, and sends its length over the socket: as decimal
text, in a buffer of `INT_TO_STRING_MAX_LEN` (10) characters that is written whole, whatever stands
after the text. `recv_loop` (the reader) reads 10 characters at a time, `listen_client` (the writer,
for what comes back when the extension is on) reads 4, and both take the length with `atoi` from
the buffer.

What a buffer on the stack holds before it is written, and what stands after it in the memory, is
arbitrary: `stack` in the definitions below.

* `lenStr_isSome_iff`: the text fits its buffer exactly below `10 ^ 9`, where an `int` goes up to
  `2147483647`.
* `framing_round_trips_iff`: to the readers the lengths go round exactly if each is below `10 ^ 9`;
  back to the writer only when there are none, since each frame is read in at least two parts.
-/

namespace LingmoAuthenticate.ShmComm

open Lib

/-! ## The text of a length -/

/-- `INT_TO_STRING_MAX_LEN`. -/
def intToStringMaxLen : ℕ := 10

/-- The character that ends a string. -/
def nul : Char := '\x00'

/-- A buffer of `INT_TO_STRING_MAX_LEN` characters. -/
abbrev LenBuffer := List.Vector Char intToStringMaxLen

/-- What `sprintf` with `"%d"` writes before the `NUL`. -/
def sprintfD (len : Int) : List Char := decimal len

/-- The memory after its first characters have been written. -/
def overwrite (stack text : List Char) : List Char := text ++ stack.drop text.length

/-- `sprintf(len_str, "%d", len)`; `none` where it writes past the end of `len_str`, which is
undefined. -/
def lenStr (stack : LenBuffer) (len : Int) : Option LenBuffer :=
  let text := sprintfD len ++ [nul]
  if h : text.length ≤ intToStringMaxLen then
    some ⟨overwrite stack.toList text, by
      rw [overwrite, List.length_append, List.length_drop, stack.toList_length]
      omega⟩
  else none

/-- The characters that `atoi` skips. -/
def isspace (c : Char) : Bool := c = ' ' || ('\t' ≤ c && c ≤ '\r')

/-- The value of the digits at the beginning, as `strtol` gives it for a `long` of 64 bits. -/
def strtolDigits (neg : Bool) (s : List Char) : Int :=
  let v : Int := Nat.ofDigitChars 10 (s.takeWhile Char.isDigit) 0
  if neg then max (-v) (-2 ^ 63) else min v (2 ^ 63 - 1)

/-- `atoi`: what `strtol` gives, cut to an `int`. The string goes on in the memory until something
is not a digit. -/
def atoi (s : List Char) : Int :=
  let v := match s.dropWhile isspace with
    | '-' :: ds => strtolDigits true ds
    | '+' :: ds => strtolDigits false ds
    | ds => strtolDigits false ds
  v.bmod (2 ^ 32)

/-! ## Writing -/

/-- `SHMN_ROLE`. -/
inductive ShmnRole where
  | shmnRoleWriter
  | shmnRoleReader
  deriving DecidableEq, Repr

/-- What the functions here read of a `shmn`: its role, whether the extension is on, with which a
reader writes, too, its own socket, those of its clients, and the size of what can be sent. -/
structure Shmn where
  role : ShmnRole
  enableEx : Bool
  selfFd : Int
  cliFdList : List Int
  senderSize : Int
  deriving Repr

/-- What a call writes, to which descriptor. -/
abbrev Written := List (Int × List Char)

/-- `server_send_data_foreach`. -/
def serverSendDataForeach (userdata : LenBuffer) (data : Int) : Int × List Char :=
  (data, userdata.toList)

/-- `shmn_write`: what it returns and what it writes to which socket. The data itself goes to the
shared memory, by `memcpy` or by the caller's function. -/
def shmnWrite (s : Option Shmn) (stack : LenBuffer) (len : Int) : Option (ShmnErr × Written) :=
  match s with
  | none => some (.shmnErrEmptyObject, [])
  | some s =>
    if len > s.senderSize then some (.shmnErrDataSize, [])
    else match s.role with
      | .shmnRoleWriter => do
          let len_str ← lenStr stack len
          return (.shmnNoErr, s.cliFdList.map (serverSendDataForeach len_str))
      | .shmnRoleReader =>
          if s.enableEx then do
            let len_str ← lenStr stack len
            return (.shmnNoErr, [(s.selfFd, len_str.toList)])
          else some (.shmnNoErr, [])

/-- A call of `shmn_write`: the clients that are connected by then, what the buffer holds, and the
length. -/
structure WriteCall where
  cliFdList : List Int
  stack : LenBuffer
  len : Int

/-- A sequence of calls: everything that they write. -/
def writes (s : Shmn) : List WriteCall → Option Written
  | [] => some []
  | c :: cs => do
      let (_, out) ← shmnWrite (some { s with cliFdList := c.cliFdList }) c.stack c.len
      return out ++ (← writes s cs)

/-- What goes to one of the sockets. -/
def streamTo (fd : Int) (out : Written) : List Char :=
  ((out.filter fun w => w.1 = fd).map Prod.snd).flatten

/-! ## Reading -/

/-- The error code of a callback. -/
inductive CbErr where
  | cbNoErr
  | cbErrDisconneted
  deriving DecidableEq, Repr

/-- One round of `recv_loop`: what the buffer and the memory after it hold, what `read` gives
(`none` where it fails), and the lengths with which the callback is invoked. -/
def recvLoop (stack : List Char) : Option (List Char) → List (Int × CbErr)
  | none => []
  | some [] => [(0, .cbErrDisconneted)]
  | some buff => [(atoi (overwrite stack buff), .cbNoErr)]

/-- What `listen_client` does with a client that has something to read. -/
def listenClient (enableEx : Bool) (stack : List Char) :
    Option (List Char) → List (Int × CbErr)
  | some [] => []
  | some read_buffer =>
      if enableEx then [(atoi (overwrite stack read_buffer), .cbNoErr)] else []
  | none => if enableEx then [(atoi stack, .cbNoErr)] else []

/-- How many characters `listen_client` reads. -/
def listenReadLen : ℕ := 4

/-- The callbacks over a sequence of reads, each with what the memory holds before it. -/
def callbacks (round : List Char → Option (List Char) → List (Int × CbErr))
    (reads : List (List Char × List Char)) : List (Int × CbErr) :=
  reads.flatMap fun r => round r.1 (some r.2)

/-- What the callback is to be invoked with. -/
def lengths (calls : List WriteCall) : List (Int × CbErr) :=
  calls.map fun c => (c.len, .cbNoErr)

/-- **The writer's lengths arrive at a client**: no text is longer than its buffer, and however the
memory of the client looks, its callback is invoked with the lengths. -/
def WriterRoundTrips (s : Shmn) (fd : Int) (calls : List WriteCall) : Prop :=
  ∃ out, writes s calls = some out ∧
    ∀ reads, Reads intToStringMaxLen (streamTo fd out) (reads.map Prod.snd) →
      callbacks recvLoop reads = lengths calls

/-- **A reader's lengths arrive at the writer**, which has the extension on, too. -/
def ReaderRoundTrips (s : Shmn) (calls : List WriteCall) : Prop :=
  ∃ out, writes s calls = some out ∧
    ∀ reads, Reads listenReadLen (streamTo s.selfFd out) (reads.map Prod.snd) →
      callbacks (listenClient true) reads = lengths calls

/-! ## The text fits, and is read back -/

variable {s : Shmn} {stack : LenBuffer} {f : LenBuffer} {len : Int} {fd : Int} {c : WriteCall}
  {calls : List WriteCall} {out : Written}

/-- **What fits the buffer**: nine digits and the `NUL`. -/
theorem lenStr_isSome_iff (h : 0 ≤ len) : (lenStr stack len).isSome ↔ len < 10 ^ 9 := by
  have htext : (sprintfD len ++ [nul]).length ≤ intToStringMaxLen ↔ len < 10 ^ 9 := by
    rw [← length_decimal_le_iff h (by decide : 0 < 9), List.length_append, List.length_singleton]
    exact Nat.succ_le_succ_iff
  unfold lenStr
  dsimp only
  split_ifs with hfits
  · exact iff_of_true rfl (htext.mp hfits)
  · exact iff_of_false (by simp) (fun hlt => hfits (htext.mpr hlt))

/-- What the frame of a length looks like. -/
theorem eq_of_lenStr (h : 0 ≤ len) (hf : lenStr stack len = some f) :
    len < 10 ^ 9 ∧ ∃ rest, f.toList = Nat.toDigits 10 len.natAbs ++ nul :: rest := by
  have hlt : len < 10 ^ 9 := (lenStr_isSome_iff h).mp (by rw [hf]; rfl)
  refine ⟨hlt, stack.toList.drop (sprintfD len ++ [nul]).length, ?_⟩
  unfold lenStr at hf
  dsimp only at hf
  split_ifs at hf
  cases hf
  show overwrite _ _ = _
  rw [overwrite, sprintfD, decimal_of_nonneg h, List.append_assoc, List.singleton_append]

/-- The digits of a text end at the `NUL`. -/
theorem takeWhile_isDigit (n : ℕ) (rest : List Char) :
    (Nat.toDigits 10 n ++ nul :: rest).takeWhile Char.isDigit = Nat.toDigits 10 n := by
  have hdigits : ∀ d ∈ Nat.toDigits 10 n, d.isDigit = true :=
    fun d hd => Nat.isDigit_of_mem_toDigits (by decide) (by decide) hd
  rw [List.takeWhile_append_of_pos hdigits, List.takeWhile_cons_of_neg (by decide),
    List.append_nil]

/-- A digit is not a space, and not a sign. -/
theorem not_space_of_isDigit {d : Char} (hd : d.isDigit = true) :
    isspace d = false ∧ d ≠ '-' ∧ d ≠ '+' := by
  refine ⟨?_, ?_, ?_⟩
  · simp only [Char.isDigit, isspace, Bool.and_eq_true, decide_eq_true_eq, Bool.or_eq_false_iff,
      decide_eq_false_iff_not, Bool.and_eq_false_iff] at hd ⊢
    refine ⟨?_, Or.inr ?_⟩
    · rintro rfl
      exact absurd hd (by decide)
    · intro hle
      have hle' : '0'.val ≤ '\r'.val := UInt32.le_trans hd.1 hle
      exact absurd hle' (by decide)
  · rintro rfl
    exact absurd hd (by decide)
  · rintro rfl
    exact absurd hd (by decide)

/-- **`atoi` of a frame** is the length. -/
theorem atoi_of_lenStr (h : 0 ≤ len) (hf : lenStr stack len = some f) (after : List Char) :
    atoi (f.toList ++ after) = len := by
  obtain ⟨hlt, rest, hrest⟩ := eq_of_lenStr h hf
  obtain ⟨d, ds, hd⟩ := List.exists_cons_of_ne_nil (Nat.toDigits_ne_nil (n := len.natAbs) (b := 10))
  have hdigit : d.isDigit = true :=
    Nat.isDigit_of_mem_toDigits (b := 10) (n := len.natAbs) (by decide) (by decide)
      (by rw [hd]; exact List.mem_cons_self)
  obtain ⟨hspace, hminus, hplus⟩ := not_space_of_isDigit hdigit
  have htext : f.toList ++ after = Nat.toDigits 10 len.natAbs ++ nul :: (rest ++ after) := by
    rw [hrest, List.append_assoc, List.cons_append]
  have hvalue : strtolDigits false (f.toList ++ after) = len := by
    unfold strtolDigits
    rw [htext, takeWhile_isDigit, Nat.ofDigitChars_ten_toDigits]
    simp only [Bool.false_eq_true, if_false]
    omega
  have hskip : (f.toList ++ after).dropWhile isspace = f.toList ++ after := by
    rw [htext, hd, List.cons_append, List.dropWhile_cons_of_neg (by simp [hspace])]
  have hstrtol : (match (f.toList ++ after).dropWhile isspace with
      | '-' :: ds => strtolDigits true ds
      | '+' :: ds => strtolDigits false ds
      | ds => strtolDigits false ds) = len := by
    rw [hskip]
    split
    · next heq =>
        rw [htext, hd, List.cons_append, List.cons.injEq] at heq
        exact absurd heq.1 hminus
    · next heq =>
        rw [htext, hd, List.cons_append, List.cons.injEq] at heq
        exact absurd heq.1 hplus
    · exact hvalue
  show Int.bmod _ _ = len
  rw [hstrtol]
  apply Int.bmod_eq_of_le
  · omega
  · omega

/-! ## What a sequence of calls writes -/

/-- The sequence writes what each call writes. -/
theorem writes_cons_eq_some :
    writes s (c :: calls) = some out ↔
      ∃ e o os, shmnWrite (some { s with cliFdList := c.cliFdList }) c.stack c.len =
        some (e, o) ∧ writes s calls = some os ∧ out = o ++ os := by
  simp only [writes, Option.bind_eq_bind, Option.bind_eq_some_iff, Option.pure_def,
    Option.some.injEq, Prod.exists]
  constructor
  · rintro ⟨e, o, hw, os, hos, rfl⟩
    exact ⟨e, o, os, hw, hos, rfl⟩
  · rintro ⟨e, o, os, hw, hos, rfl⟩
    exact ⟨e, o, hw, os, hos, rfl⟩

theorem streamTo_append (o os : Written) :
    streamTo fd (o ++ os) = streamTo fd o ++ streamTo fd os := by
  unfold streamTo
  rw [List.filter_append, List.map_append, List.flatten_append]

/-- To one that is once among the clients, the frame goes once. -/
theorem streamTo_clients {fds : List Int} (h : fds.count fd = 1) :
    streamTo fd (fds.map (serverSendDataForeach f)) = f.toList := by
  have hfilter : (fds.map (serverSendDataForeach f)).filter (fun w => w.1 = fd) =
      (fds.filter (fun x => x = fd)).map (serverSendDataForeach f) := by
    rw [List.filter_map]
    rfl
  have hfds : fds.filter (fun x => x = fd) = [fd] := by
    have hrep := List.filter_eq (l := fds) fd
    simpa [h] using hrep
  unfold streamTo
  rw [hfilter, hfds]
  simp [serverSendDataForeach]

/-- A call of the writer writes a frame to the client, if the length has one. -/
theorem shmnWrite_writer {e : ShmnErr} {o : Written} (hrole : s.role = .shmnRoleWriter)
    (hlen : c.len ≤ s.senderSize) :
    shmnWrite (some { s with cliFdList := c.cliFdList }) c.stack c.len = some (e, o) ↔
      ∃ f, lenStr c.stack c.len = some f ∧ e = .shmnNoErr ∧
        o = c.cliFdList.map (serverSendDataForeach f) := by
  unfold shmnWrite
  dsimp only
  rw [if_neg (Int.not_lt.mpr hlen), hrole]
  simp only [Option.bind_eq_bind, Option.bind_eq_some_iff, Option.pure_def, Option.some.injEq,
    Prod.mk.injEq]
  constructor
  · rintro ⟨f, hf, rfl, rfl⟩
    exact ⟨f, hf, rfl, rfl⟩
  · rintro ⟨f, hf, rfl, rfl⟩
    exact ⟨f, hf, rfl, rfl⟩

/-- A call of a reader with the extension writes a frame to its socket, if the length has one. -/
theorem shmnWrite_reader {e : ShmnErr} {o : Written} (hrole : s.role = .shmnRoleReader)
    (hex : s.enableEx = true) (hlen : c.len ≤ s.senderSize) :
    shmnWrite (some { s with cliFdList := c.cliFdList }) c.stack c.len = some (e, o) ↔
      ∃ f, lenStr c.stack c.len = some f ∧ e = .shmnNoErr ∧ o = [(s.selfFd, f.toList)] := by
  unfold shmnWrite
  dsimp only
  rw [if_neg (Int.not_lt.mpr hlen), hrole]
  simp only [hex, if_true, Option.bind_eq_bind, Option.bind_eq_some_iff, Option.pure_def,
    Option.some.injEq, Prod.mk.injEq]
  constructor
  · rintro ⟨f, hf, rfl, rfl⟩
    exact ⟨f, hf, rfl, rfl⟩
  · rintro ⟨f, hf, rfl, rfl⟩
    exact ⟨f, hf, rfl, rfl⟩

/-- A call sends one frame over the socket, the text of its length, wherever that fits into the
buffer; and what it sends is nothing else. -/
structure Sends (s : Shmn) (fd : Int) (c : WriteCall) : Prop where
  of_fits : (lenStr c.stack c.len).isSome →
    (shmnWrite (some { s with cliFdList := c.cliFdList }) c.stack c.len).isSome
  frame : ∀ e o, shmnWrite (some { s with cliFdList := c.cliFdList }) c.stack c.len =
    some (e, o) → ∃ f, lenStr c.stack c.len = some f ∧ streamTo fd o = f.toList

theorem sends_writer (hrole : s.role = .shmnRoleWriter) (hlen : c.len ≤ s.senderSize)
    (hfd : c.cliFdList.count fd = 1) : Sends s fd c := by
  constructor
  · intro hfits
    obtain ⟨f, hf⟩ := Option.isSome_iff_exists.mp hfits
    rw [(shmnWrite_writer hrole hlen).mpr ⟨f, hf, rfl, rfl⟩]
    rfl
  · intro e o hw
    obtain ⟨f, hf, -, rfl⟩ := (shmnWrite_writer hrole hlen).mp hw
    exact ⟨f, hf, streamTo_clients hfd⟩

theorem sends_reader (hrole : s.role = .shmnRoleReader) (hex : s.enableEx = true)
    (hlen : c.len ≤ s.senderSize) : Sends s s.selfFd c := by
  constructor
  · intro hfits
    obtain ⟨f, hf⟩ := Option.isSome_iff_exists.mp hfits
    rw [(shmnWrite_reader hrole hex hlen).mpr ⟨f, hf, rfl, rfl⟩]
    rfl
  · intro e o hw
    obtain ⟨f, hf, -, rfl⟩ := (shmnWrite_reader hrole hex hlen).mp hw
    refine ⟨f, hf, ?_⟩
    simp [streamTo]

/-- The frames of the calls, in order. -/
abbrev Frames (calls : List WriteCall) (frames : List LenBuffer) : Prop :=
  List.Forall₂ (fun c f => lenStr c.stack c.len = some f) calls frames

/-- Each length has a text that fits. -/
theorem isSome_of_frames {frames : List LenBuffer} (hframes : Frames calls frames) :
    ∀ c ∈ calls, (lenStr c.stack c.len).isSome := by
  induction hframes with
  | nil => simp
  | cons hf hframes ih =>
      refine List.forall_mem_cons.mpr ⟨?_, ih⟩
      rw [hf]
      rfl

/-- Where every text fits, the calls return. -/
theorem writes_isSome (hsends : ∀ c ∈ calls, Sends s fd c)
    (hfits : ∀ c ∈ calls, (lenStr c.stack c.len).isSome) : ∃ out, writes s calls = some out := by
  induction calls with
  | nil => exact ⟨[], rfl⟩
  | cons c calls ih =>
      obtain ⟨hc, hsends⟩ := List.forall_mem_cons.mp hsends
      obtain ⟨hcfits, hfits⟩ := List.forall_mem_cons.mp hfits
      obtain ⟨⟨e, o⟩, hw⟩ := Option.isSome_iff_exists.mp (hc.of_fits hcfits)
      obtain ⟨os, hos⟩ := ih hsends hfits
      exact ⟨o ++ os, writes_cons_eq_some.mpr ⟨e, o, os, hw, hos, rfl⟩⟩

/-- **What comes over the socket** is one frame after another. -/
theorem frames_of_writes (hsends : ∀ c ∈ calls, Sends s fd c) (hout : writes s calls = some out) :
    ∃ frames, Frames calls frames ∧ streamTo fd out = (frames.map (·.toList)).flatten := by
  induction calls generalizing out with
  | nil =>
      cases hout
      exact ⟨[], .nil, rfl⟩
  | cons c calls ih =>
      obtain ⟨hc, hsends⟩ := List.forall_mem_cons.mp hsends
      obtain ⟨e, o, os, hw, hos, rfl⟩ := writes_cons_eq_some.mp hout
      obtain ⟨f, hf, ho⟩ := hc.frame e o hw
      obtain ⟨frames, hframes, hrest⟩ := ih hsends hos
      refine ⟨f :: frames, .cons hf hframes, ?_⟩
      rw [streamTo_append, ho, hrest, List.map_cons, List.flatten_cons]

/-! ## To the readers -/

theorem recvLoop_of_ne_nil (mem : List Char) {buff : List Char} (h : buff ≠ []) :
    recvLoop mem (some buff) = [(atoi (overwrite mem buff), .cbNoErr)] := by
  obtain ⟨c, cs, rfl⟩ := List.exists_cons_of_ne_nil h
  rfl

theorem toList_ne_nil (f : LenBuffer) : f.toList ≠ [] := by
  intro h
  have hlen := f.toList_length
  rw [h] at hlen
  exact absurd hlen (by decide)

/-- **The client's callbacks**, where each read is a frame. -/
theorem callbacks_recvLoop {frames : List LenBuffer} {reads : List (List Char × List Char)}
    (hnonneg : ∀ c ∈ calls, 0 ≤ c.len) (hframes : Frames calls frames)
    (hreads : reads.map Prod.snd = frames.map (·.toList)) :
    callbacks recvLoop reads = lengths calls := by
  induction hframes generalizing reads with
  | nil =>
      rw [List.map_nil, List.map_eq_nil_iff] at hreads
      rw [hreads]
      rfl
  | @cons c f calls frames hf hframes ih =>
      obtain ⟨hc, hnonneg⟩ := List.forall_mem_cons.mp hnonneg
      obtain ⟨⟨mem, buff⟩, reads, rfl, hbuff, hrest⟩ := List.map_eq_cons_iff.mp hreads
      obtain rfl : buff = f.toList := hbuff
      show recvLoop mem (some f.toList) ++ callbacks recvLoop reads = _ :: lengths calls
      rw [recvLoop_of_ne_nil mem (toList_ne_nil f), ih hnonneg hrest, overwrite,
        atoi_of_lenStr hc hf]
      rfl

theorem length_mem_frames {frames : List LenBuffer} :
    ∀ t ∈ frames.map (·.toList), t.length = intToStringMaxLen := by
  intro t ht
  obtain ⟨f, -, rfl⟩ := List.mem_map.mp ht
  exact f.toList_length

/-- **To a client that stays connected** the lengths go round exactly if each is below `10 ^ 9`. -/
theorem writerRoundTrips_iff (hrole : s.role = .shmnRoleWriter)
    (haccepted : ∀ c ∈ calls, 0 ≤ c.len ∧ c.len ≤ s.senderSize)
    (hfd : ∀ c ∈ calls, c.cliFdList.count fd = 1) :
    WriterRoundTrips s fd calls ↔ ∀ c ∈ calls, c.len < 10 ^ 9 := by
  have hsends : ∀ c ∈ calls, Sends s fd c :=
    fun c hc => sends_writer hrole (haccepted c hc).2 (hfd c hc)
  constructor
  · rintro ⟨out, hout, -⟩ c hc
    obtain ⟨frames, hframes, -⟩ := frames_of_writes hsends hout
    exact (lenStr_isSome_iff (haccepted c hc).1).mp (isSome_of_frames hframes c hc)
  · intro hlt
    obtain ⟨out, hout⟩ := writes_isSome hsends
      (fun c hc => (lenStr_isSome_iff (haccepted c hc).1).mpr (hlt c hc))
    obtain ⟨frames, hframes, hstream⟩ := frames_of_writes hsends hout
    refine ⟨out, hout, ?_⟩
    intro reads hreads
    rw [hstream] at hreads
    exact callbacks_recvLoop (fun c hc => (haccepted c hc).1) hframes
      ((reads_flatten_iff (by decide) length_mem_frames).mp hreads)

/-! ## Back to the writer -/

/-- Each read is one callback. -/
theorem length_callbacks_listenClient {reads : List (List Char × List Char)}
    (hne : ∀ t ∈ reads.map Prod.snd, t ≠ []) :
    (callbacks (listenClient true) reads).length = reads.length := by
  induction reads with
  | nil => rfl
  | cons r reads ih =>
      obtain ⟨hr, hne⟩ := List.forall_mem_cons.mp hne
      obtain ⟨d, ds, hd⟩ := List.exists_cons_of_ne_nil hr
      have hround : listenClient true r.1 (some r.2) =
          [(atoi (overwrite r.1 r.2), .cbNoErr)] := by
        rw [hd]
        rfl
      show (listenClient true r.1 (some r.2) ++ callbacks (listenClient true) reads).length = _
      rw [hround, List.length_append, ih hne, List.length_singleton, List.length_cons,
        Nat.add_comm]

/-- **The writer never agrees**: of any frames it makes more callbacks than there are lengths. -/
theorem listenClient_disagrees {frames : List LenBuffer} {reads : List (List Char × List Char)}
    (hne : calls ≠ []) (hframes : Frames calls frames)
    (hreads : Reads listenReadLen (frames.map (·.toList)).flatten (reads.map Prod.snd)) :
    (lengths calls).length < (callbacks (listenClient true) reads).length := by
  have hlt := hreads.length_lt
  rw [length_flatten_frames length_mem_frames, List.length_map, List.length_map,
    ← hframes.length_eq] at hlt
  have hpos : 0 < calls.length := List.length_pos_iff.mpr hne
  rw [length_callbacks_listenClient (hreads.ne_nil (by decide)), lengths, List.length_map]
  have hlisten : listenReadLen = 4 := rfl
  have hframe : intToStringMaxLen = 10 := rfl
  rw [hlisten, hframe] at hlt
  omega

/-- **Back to the writer** only the empty sequence goes round. -/
theorem readerRoundTrips_iff (hrole : s.role = .shmnRoleReader) (hex : s.enableEx = true)
    (haccepted : ∀ c ∈ calls, 0 ≤ c.len ∧ c.len ≤ s.senderSize) :
    ReaderRoundTrips s calls ↔ calls = [] := by
  constructor
  · rintro ⟨out, hout, hall⟩
    by_contra hne
    obtain ⟨frames, hframes, hstream⟩ := frames_of_writes
      (fun c hc => sends_reader hrole hex (haccepted c hc).2) hout
    obtain ⟨chunks, hchunks⟩ := exists_reads (n := listenReadLen) (by decide)
      (streamTo s.selfFd out)
    let reads : List (List Char × List Char) := chunks.map fun t => ([], t)
    have hreads : Reads listenReadLen (streamTo s.selfFd out) (reads.map Prod.snd) := by
      simpa [reads, Function.comp_def] using hchunks
    have hagree := hall reads hreads
    rw [hstream] at hreads
    have hmore := listenClient_disagrees hne hframes hreads
    rw [hagree] at hmore
    exact absurd hmore (Nat.lt_irrefl _)
  · rintro rfl
    refine ⟨[], rfl, ?_⟩
    intro reads hreads
    have hnone : ∀ f ∈ ([] : List (List Char)), f.length = listenReadLen := by simp
    have hnil : reads.map Prod.snd = [] := (reads_flatten_iff (by decide) hnone).mp hreads
    rw [List.map_eq_nil_iff.mp hnil]
    rfl

/-- **The round trips, exactly.** Of the lengths that `shmn_write` accepts, those that the writer
sends arrive at a client exactly if each is below `10 ^ 9`, and those that a reader with the
extension sends arrive at the writer only if there are none. -/
theorem framing_round_trips_iff {w r : Shmn} {fd : Int} {calls : List WriteCall}
    (hw : w.role = .shmnRoleWriter) (hr : r.role = .shmnRoleReader) (hex : r.enableEx = true)
    (hwcalls : ∀ c ∈ calls, 0 ≤ c.len ∧ c.len ≤ w.senderSize)
    (hrcalls : ∀ c ∈ calls, 0 ≤ c.len ∧ c.len ≤ r.senderSize)
    (hfd : ∀ c ∈ calls, c.cliFdList.count fd = 1) :
    (WriterRoundTrips w fd calls ↔ ∀ c ∈ calls, c.len < 10 ^ 9) ∧
      (ReaderRoundTrips r calls ↔ calls = []) :=
  ⟨writerRoundTrips_iff hw hwcalls hfd, readerRoundTrips_iff hr hex hrcalls⟩

/-- A writer and a reader with memory for `size` characters. -/
def exampleShmn (role : ShmnRole) (size : Int) : Shmn :=
  { role, enableEx := true, selfFd := 5, cliFdList := [], senderSize := size }

/-- A call with one client connected, and an empty buffer. -/
def exampleCall (len : Int) : WriteCall :=
  { cliFdList := [7], stack := List.Vector.replicate intToStringMaxLen nul, len }

/-- Lengths of one to ten digits. -/
def exampleCalls : List WriteCall := [5, 42, 0, 999999999, 1000000000].map exampleCall

/-- The last of them is too long for its frame, and without it all arrive at the client; at the
writer they do not arrive. -/
theorem framing_round_trips_lengths :
    (WriterRoundTrips (exampleShmn .shmnRoleWriter (2 ^ 31 - 1)) 7 exampleCalls ↔
      ∀ c ∈ exampleCalls, c.len < 10 ^ 9) ∧
    (ReaderRoundTrips (exampleShmn .shmnRoleReader (2 ^ 31 - 1)) exampleCalls ↔
      exampleCalls = []) ∧
    WriterRoundTrips (exampleShmn .shmnRoleWriter (2 ^ 31 - 1)) 7 (exampleCalls.take 4) := by
  have hall := @framing_round_trips_iff (exampleShmn .shmnRoleWriter (2 ^ 31 - 1))
    (exampleShmn .shmnRoleReader (2 ^ 31 - 1)) 7 exampleCalls
    rfl rfl rfl (by decide) (by decide) (by decide)
  have hfirst := @framing_round_trips_iff (exampleShmn .shmnRoleWriter (2 ^ 31 - 1))
    (exampleShmn .shmnRoleReader (2 ^ 31 - 1)) 7 (exampleCalls.take 4)
    rfl rfl rfl (by decide) (by decide) (by decide)
  exact ⟨hall.1, hall.2, hfirst.1.mpr (by decide)⟩

/-- **The frame of one length is three callbacks**: the length 5 that a reader sends, and two lengths
of what stands after it in the frame; nor does a length of ten digits have a frame at all. -/
theorem one_length_three_callbacks :
    writes (exampleShmn .shmnRoleReader 100) [exampleCall 5] =
      some [(5, '5' :: List.replicate 9 nul)] ∧
    Reads listenReadLen ('5' :: List.replicate 9 nul)
      [['5', nul, nul, nul], [nul, nul, nul, nul], [nul, nul]] ∧
    callbacks (listenClient true)
      [([], ['5', nul, nul, nul]), ([], [nul, nul, nul, nul]), ([], [nul, nul])] =
      [(5, .cbNoErr), (0, .cbNoErr), (0, .cbNoErr)] ∧
    ¬ ReaderRoundTrips (exampleShmn .shmnRoleReader 100) [exampleCall 5] ∧
    ¬ WriterRoundTrips (exampleShmn .shmnRoleWriter (10 ^ 9)) 7 [exampleCall (10 ^ 9)] := by
  refine ⟨by decide, ?_, by decide, ?_, ?_⟩
  · exact .full (c := ['5', nul, nul, nul]) rfl
      (.full (c := [nul, nul, nul, nul]) rfl (.short (by decide) (by decide)))
  · rw [readerRoundTrips_iff rfl rfl (by decide)]
    simp
  · rw [writerRoundTrips_iff rfl (by decide) (by decide)]
    decide

end LingmoAuthenticate.ShmComm

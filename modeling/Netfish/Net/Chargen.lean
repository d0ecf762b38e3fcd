import Netfish.Kit.Repeats
import Netfish.Net.WriteComplete

/-!
# The character generator

`testTcpServerChargen` sends one message, ninety-four rows of seventy-two characters, when a connection comes
up and again whenever the last one has been written. `chargen_stream` gives the byte at every place of what the
kernel takes, for any number of senders of that message. `chargen_bounded` is about the generator alone: of all
it sends, there is at most one message in `outputBuffer_`.
-/

set_option autoImplicit false

namespace Netfish

open Kit

universe u

/-- `line`, the characters from 33 to 126, twice. -/
def chargenLine : List UInt8 :=
  let line := (List.range' 33 (127 - 33)).map UInt8.ofNat
  line ++ line

/-- `msg` -/
def chargenMessage : List UInt8 := (List.range (127 - 33)).flatMap fun i => (chargenLine.drop i).take 72

/-- The character at a place of the endless stream, in its row and column. -/
def chargenByte (k : Nat) : UInt8 := UInt8.ofNat (33 + (k / 72 + k % 72) % (127 - 33))

theorem chargenLine_getElem? {i : Nat} (hi : i < 188) :
    chargenLine[i]? = some (UInt8.ofNat (33 + i % (127 - 33))) := by
  have hline : chargenLine =
      (List.replicate 2 ((List.range' 33 (127 - 33)).map UInt8.ofNat)).flatten := by
    simp [chargenLine, List.replicate_succ]
  have hmod : i % (127 - 33) < 127 - 33 := Nat.mod_lt _ (by decide)
  rw [hline, getElem?_flatten_replicate _ (by simpa using hi), List.length_map, List.length_range',
    List.getElem?_map, List.getElem?_range' hmod, Nat.one_mul]
  rfl

theorem chargenRow_length {i : Nat} (hi : i < 127 - 33) : ((chargenLine.drop i).take 72).length = 72 := by
  have hlen : chargenLine.length = 188 := by simp [chargenLine]
  rw [List.length_take, List.length_drop, hlen]
  omega

theorem chargenMessage_length : chargenMessage.length = (127 - 33) * 72 := by
  rw [chargenMessage, List.length_flatMap, List.map_congr_left (g := fun _ => 72)]
  · simp
  · intro i hi
    exact chargenRow_length (List.mem_range.mp hi)

/-- Row and column of the message. -/
theorem chargenMessage_getElem? {k : Nat} (hk : k < (127 - 33) * 72) :
    chargenMessage[k]? = some (chargenByte k) := by
  have hrow : k / 72 < 127 - 33 := by omega
  have hcolumn : k % 72 < 72 := Nat.mod_lt _ (by decide)
  have hplace : k / 72 * 72 + k % 72 = k := Nat.div_add_mod' k 72
  have hget := getElem?_flatMap_rows (f := fun i => (chargenLine.drop i).take 72)
    (fun i hi => chargenRow_length hi) hrow hcolumn
  rw [hplace] at hget
  rw [chargenMessage, hget, List.getElem?_take_of_lt hcolumn, List.getElem?_drop,
    chargenLine_getElem? (by omega)]
  rfl

/-- The rows go on from one message to the next. -/
theorem chargenByte_mod (k : Nat) : chargenByte (k % ((127 - 33) * 72)) = chargenByte k := by
  have hmod : (k % ((127 - 33) * 72) / 72 + k % ((127 - 33) * 72) % 72) % (127 - 33) =
      (k / 72 + k % 72) % (127 - 33) := by omega
  rw [chargenByte, hmod]
  rfl

/-- Nothing else is sent. -/
def ConnAct.sendsOnly {T : Type u} (msg : List UInt8) : ConnAct T → Bool
  | .sendTest _ message => message = msg
  | _ => true

namespace ConnState

variable {T : Type u} [DecidableEq T] {s s' : ConnState T} {a : ConnAct T} {msg : List UInt8}

/-- What is accepted after a `send` was so before, or is its message. -/
theorem mem_accepted {o o' : Option T} {message message' : List UInt8}
    (h : message' ∈ Function.update s.accepted o (s.accepted o ++ [message]) o') :
    message' ∈ s.accepted o' ∨ message' = message := by
  by_cases ho : o' = o
  · subst ho
    rw [Function.update_self] at h
    rcases List.mem_append.mp h with h | h
    · exact .inl h
    · exact .inr (List.mem_singleton.mp h)
  · rw [Function.update_of_ne ho] at h
    exact .inl h

/-- Only this message has been accepted. -/
structure SendsOnly (msg : List UInt8) (s : ConnState T) : Prop extends s.Streams where
  only : ∀ o, ∀ message ∈ s.accepted o, message = msg

theorem SendsOnly.step (h : s.SendsOnly msg) (ha : a.sendsOnly msg = true) (hs : s.step a = some s') :
    s'.SendsOnly msg := by
  refine ⟨h.toStreams.step hs, ?_⟩
  cases step_move h.wf hs with
  | @accept o message =>
    intro o' message' hmem
    rcases mem_accepted hmem with hold | rfl
    · exact h.only o' message' hold
    · exact of_decide_eq_true ha
  | sendHere | callWrite | runSend | shutHere | runShutdown =>
    rw [perform_eq]
    exact h.only
  | _ => exact h.only

/-- All that ran is copies of it. -/
theorem SendsOnly.ran_eq (h : s.SendsOnly msg) : s.ran.map Prod.snd = List.replicate s.ran.length msg := by
  apply List.eq_replicate_iff.mpr
  refine ⟨List.length_map .., ?_⟩
  intro message hmem
  obtain ⟨q, hq, rfl⟩ := List.mem_map.mp hmem
  exact h.only q.1 q.2 (h.accepted_ran hq)

theorem SendsOnly.stream_eq (h : s.SendsOnly msg) :
    s.wire ++ s.conn.outputBuffer_ = (List.replicate s.ran.length msg).flatten := by
  rw [h.bytes, h.ran_eq]

theorem start_sendsOnly (m w : Bool) (msg : List UInt8) : (start m w : ConnState T).SendsOnly msg :=
  { start_streams m w with only := fun _ _ hmem => (nomatch hmem) }

end ConnState

/-- A connection on which everybody sends one message only. -/
def sameMessage (T : Type u) [DecidableEq T] (msg : List UInt8) : Machine (ConnState T) (ConnAct T) :=
  (tcpConnection T).restrict fun _ a => a.sendsOnly msg

/-- The generator: it sends the message first, and then once for each notice. -/
def chargen (T : Type u) [DecidableEq T] (msg : List UInt8) : Machine (ConnState T × Notices) (ConnAct T) :=
  (completionSender T).restrict fun _ a => a.sendsOnly msg

variable {T : Type u} [DecidableEq T]

/-- **The generated stream.** In every reachable state of a connection on which any number of threads send the
generator's message, through partial writes and closes: the byte at place `k` of what the kernel took is the
character of row `k / 72`, which begins one character later than the row before, at column `k % 72`. -/
theorem chargen_stream {s : ConnState T} (h : (sameMessage T chargenMessage).Reachable s) {k : Nat} {b : UInt8}
    (hb : s.wire[k]? = some b) : b = chargenByte k := by
  have hsends : s.SendsOnly chargenMessage := by
    apply h.invariant
    · rintro _ ⟨m, w, rfl⟩
      exact ConnState.start_sendsOnly m w chargenMessage
    · intro s a s' hs hstep
      obtain ⟨ha, hstep⟩ := Machine.restrict_step.mp hstep
      exact hs.step ha hstep
  have hrepeats : Repeats chargenMessage s.wire :=
    ⟨s.ran.length, hsends.stream_eq ▸ List.prefix_append ..⟩
  obtain ⟨hk, -⟩ := List.getElem?_eq_some_iff.mp hb
  have hbyte := hrepeats.getElem?_eq hk
  rw [hb, chargenMessage_length, chargenMessage_getElem? (Nat.mod_lt _ (by decide)), chargenByte_mod] at hbyte
  exact Option.some.inj hbyte

/-- The kernel may take any beginning of the first message. -/
theorem sameMessage_first (msg : List UInt8) {n : Nat} (hn : n < msg.length) :
    ∃ s : ConnState Unit, (sameMessage Unit msg).Reachable s ∧ s.wire = msg.take n := by
  refine ⟨_, ⟨.start true true, [.connectEstablished, .sendTest none msg, .sendHere (.wrote n)],
    ⟨true, true, rfl⟩, Machine.run_cons_eq_some.mpr ⟨_, Machine.restrict_step.mpr ⟨rfl, rfl⟩,
      Machine.run_cons_eq_some.mpr ⟨_, Machine.restrict_step.mpr ⟨decide_eq_true rfl, rfl⟩,
        Machine.run_cons_eq_some.mpr ⟨_, Machine.restrict_step.mpr ⟨rfl, if_pos (Nat.le_of_lt hn)⟩, rfl⟩⟩⟩⟩, ?_⟩
  have hdirect : ∀ c : TcpConnection, c.channel_.isWriting = false → c.outputBuffer_ = [] →
      c.directWrite msg (.wrote n) = (n, [.write (msg.take n)]) := by
    intro c hc hout
    rw [TcpConnection.directWrite, if_pos ⟨hc, hout⟩]
    simp [hn]
  simp only [TcpConnection.sendInLoop]
  rw [hdirect]
  · simp only [hn, if_true]
    rfl
  · rfl
  · rfl

/-- The kernel takes one row and one character more. -/
theorem chargen_stream_row : ∃ s : ConnState Unit, s.wire[72]? = some 34 ∧ 34 = chargenByte 72 := by
  have hlong : 73 < chargenMessage.length := by
    rw [chargenMessage_length]
    decide
  obtain ⟨s, hreach, hwire⟩ := sameMessage_first chargenMessage hlong
  have hbyte : s.wire[72]? = some 34 := by
    rw [hwire, List.getElem?_take_of_lt (by decide), chargenMessage_getElem? (by decide)]
    rfl
  exact ⟨s, hbyte, chargen_stream hreach hbyte⟩

/-! ## What is buffered -/

namespace ConnState

variable {s s' : ConnState T} {a : ConnAct T} {n n' : Notices} {msg : List UInt8}

/-- The generator has at most one message in the buffer. -/
structure Generates (msg : List UInt8) (s : ConnState T) (n : Notices) : Prop
    extends s.OneTurn n, s.SendsOnly msg where
  bounded : s.conn.outputBuffer_.length ≤ msg.length

/-- With the turn in `send`, nothing is left to write. -/
theorem OneTurn.sending_nothing_left (h : s.OneTurn n) {message : List UInt8}
    (hc : s.calls none = .sending message) : s.conn.outputBuffer_ = [] := by
  have hone := h.one
  by_contra hout
  rw [turnCount, hc, if_neg hout] at hone
  simp only [CallerPc.message, List.length_singleton] at hone
  omega

theorem Generates.bounded_step (h : s.Generates msg n) (hs : s.step a = some s') :
    s'.conn.outputBuffer_.length ≤ msg.length := by
  cases step_move h.wf hs with
  | @sendHere w message conn es hc hsent =>
    rw [perform_eq]
    show conn.outputBuffer_.length ≤ msg.length
    have hstream := congrArg List.length hsent.stream
    rw [h.sending_nothing_left hc, h.only none message (h.accepted_call hc), List.nil_append,
      List.length_append] at hstream
    omega
  | callWrite _ hwrote =>
    rw [perform_eq]
    have hstream := congrArg List.length hwrote.stream
    have hbounded := h.bounded
    rw [List.length_append] at hstream
    dsimp only
    omega
  | @runSend w t message rest conn es _ hnext =>
    have hmem := h.accepted_next hnext
    rw [h.alone t] at hmem
    cases hmem
  | shutHere | runShutdown =>
    rw [perform_eq]
    exact h.bounded
  | _ => exact h.bounded

end ConnState

/-- **The generator is held back by its connection.** In every run of the generator up to the first
`disableAll`, for any results of `::write`: what the kernel took and what is in `outputBuffer_` is copies of the
message, as many as have been sent; of them at most one is in the buffer, so the kernel has all but the last. -/
theorem chargen_bounded {msg : List UInt8} (m : Bool) {as : List (ConnAct T)} {p : ConnState T × Notices}
    (h : (chargen T msg).run (.start m true, ⟨0, 1⟩) as = some p) :
    p.1.wire ++ p.1.conn.outputBuffer_ = (List.replicate p.1.ran.length msg).flatten ∧
    p.1.conn.outputBuffer_.length ≤ msg.length ∧
    (p.1.ran.length - 1) * msg.length ≤ p.1.wire.length := by
  have hp : p.1.Generates msg p.2 := by
    apply Machine.run_invariant (fun p : ConnState T × Notices => p.1.Generates msg p.2) ?_ ?_ h
    · intro p a p' hp hs
      obtain ⟨ha, hs⟩ := Machine.restrict_step.mp hs
      obtain ⟨hturn, hs⟩ := Machine.restrict_step.mp hs
      obtain ⟨hbytes, hopen, hs, hsee⟩ := notifiedConnection_step hs
      exact { hp.toOneTurn.step hbytes hturn hopen hs hsee with
        only := (hp.toSendsOnly.step ha hs).only
        bounded := hp.bounded_step hs }
    · exact { ConnState.start_oneTurn m with
        only := (ConnState.start_sendsOnly m true msg).only
        bounded := Nat.zero_le _ }
  refine ⟨hp.toSendsOnly.stream_eq, hp.bounded, ?_⟩
  have hlen := congrArg List.length hp.toSendsOnly.stream_eq
  have hbounded := hp.bounded
  rw [List.length_append, List.length_flatten, List.map_replicate, List.sum_replicate_nat] at hlen
  rw [Nat.sub_mul, Nat.one_mul]
  omega

/-- Two messages, the second one half written. -/
theorem chargen_bounded_half : ∃ p : ConnState Unit × Notices, p.1.ran.length = 2 ∧
    p.1.conn.outputBuffer_ = [8] ∧ p.1.conn.outputBuffer_.length ≤ [7, 8].length := by
  have hrun : (chargen Unit [7, 8]).run (.start true true, ⟨0, 1⟩)
      [.connectEstablished, .sendTest none [7, 8], .sendHere (.wrote 2), .beginFunctors, .runFunctor .failed,
        .sendTest none [7, 8], .sendHere (.wrote 1)] = some _ := rfl
  exact ⟨_, rfl, rfl, (chargen_bounded true hrun).2.1⟩

end Netfish

import MiniRtc.Rtcp.Requests

/-! The octets of an extended report (receiver_rtt.h): a block with a reference time and a block with one
reply are parsed back wherever they stand. -/
namespace MiniRtc.Rtcp.RttReport
open Wire

theorem join_halves (ntp : BitVec 64) :
    ((ntp >>> 32).setWidth 32 ++ ntp.setWidth 32 : BitVec 64) = ntp := by
  have wide := ntp.isLt
  apply BitVec.eq_of_toNat_eq
  rw [BitVec.toNat_append, BitVec.toNat_setWidth, BitVec.toNat_setWidth, BitVec.toNat_ushiftRight,
    Nat.shiftRight_eq_div_pow, ← Nat.shiftLeft_add_eq_or_of_lt (Nat.mod_lt _ (by norm_num)), Nat.shiftLeft_eq]
  omega

/-- The words of a block, under its type and its length. -/
def blockOctets (blockType words : Byte) (body : Bytes) : Bytes := [blockType, 0, 0, words] ++ body

section Block

variable {payload front body back : Bytes} {blockType words : Byte}
  (whole : payload = front ++ (blockOctets blockType words body ++ back)) (size : body.length = 4 * words.toNat)

include whole

theorem byteAt_block (i : Nat) : byteAt payload (front.length + i) = byteAt (blockOctets blockType words body ++ back) i := by
  rw [whole, byteAt_append_add]

theorem read8_block (i : Nat) (inside : i < 4) :
    read8 payload (front.length + i) = some (byteAt (blockOctets blockType words body) i) := by
  have long : i < (blockOctets blockType words body).length := by
    simp only [blockOctets, List.length_append, List.length_cons, List.length_nil]
    omega
  rw [read8_eq (by simp only [whole, List.length_append]; omega), byteAt_block whole, byteAt_append_left long]

include size

/-- A turn over a block that is accepted. -/
theorem parseBlocks_block (turns : Nat) {report after : RttReport}
    (parsed : parseBlock payload front.length (4 + body.length) report = some (some after)) :
    parseBlocks payload (turns + 1) front.length report =
      parseBlocks payload turns (front.length + (4 + body.length)) after := by
  have long : payload.length = front.length + (4 + body.length) + back.length := by
    simp only [whole, blockOctets, List.length_append, List.length_cons, List.length_nil]
    omega
  have length : blockLength payload front.length = some (4 + body.length) := by
    rw [blockLength, read8_block whole 2 (by decide), read8_block whole 3 (by decide)]
    have high : byteAt (blockOctets blockType words body) 2 = 0 := rfl
    have low : byteAt (blockOctets blockType words body) 3 = words := rfl
    simp only [high, low, Option.bind_eq_bind, Option.bind_some, Option.pure_def, Option.some.injEq]
    have none : (0 : Byte).toNat = 0 := rfl
    omega
  rw [parseBlocks, if_neg (by omega), if_neg (by omega), length]
  simp only [Option.bind_eq_bind, Option.bind_some]
  rw [if_neg (by omega), parsed]
  rfl

end Block

/-- A word after the head of a block. -/
theorem read32_block {payload front before back : Bytes} {blockType words : Byte} {v : BitVec 32}
    (whole : payload = front ++ (blockOctets blockType words (before ++ (put32 v ++ back)))) :
    read32 payload (front.length + (4 + before.length)) = some v := by
  have place := read32_put32 (front ++ blockOctets blockType words before) back v
  have size : (front ++ blockOctets blockType words before).length = front.length + (4 + before.length) := by
    simp only [blockOctets, List.length_append, List.length_cons, List.length_nil]
  rw [size] at place
  rw [whole, ← place, blockOctets, blockOctets]
  simp only [List.append_assoc]

def timeOctets (time : BitVec 64) : Bytes :=
  blockOctets 4 2 (put32 ((time >>> 32).setWidth 32) ++ put32 (time.setWidth 32))

def replyBlock (reply : Dlrr) : Bytes :=
  blockOctets 5 3 (put32 reply.ssrc ++ put32 reply.lastRr ++ put32 reply.delay)

theorem parseBlock_time {payload front back : Bytes} {time : BitVec 64}
    (whole : payload = front ++ (timeOctets time ++ back)) {report : RttReport} (fresh : report.referenceTime = none) :
    parseBlock payload front.length 12 report = some (some { report with referenceTime := some time }) := by
  have type := read8_block whole 0 (by decide)
  have high := @read32_block payload front [] (put32 (time.setWidth 32) ++ back) 4 2 ((time >>> 32).setWidth 32)
    (by rw [whole, timeOctets, blockOctets, blockOctets]; simp only [List.append_assoc, List.nil_append])
  have low := @read32_block payload front (put32 ((time >>> 32).setWidth 32)) back 4 2 (time.setWidth 32)
    (by rw [whole, timeOctets, blockOctets, blockOctets]; simp only [List.append_assoc])
  have kind : byteAt (blockOctets 4 2 (put32 ((time >>> 32).setWidth 32) ++ put32 (time.setWidth 32))) 0 = 4 := rfl
  rw [kind, Nat.add_zero] at type
  rw [List.length_nil, Nat.add_zero] at high
  rw [put32_length] at low
  rw [parseBlock, type]
  simp only [Option.bind_eq_bind, Option.bind_some, if_true]
  rw [if_neg (by simp [fresh]), high, low]
  simp only [Option.bind_some, join_halves]
  rfl

theorem parseBlock_reply {payload front back : Bytes} {reply : Dlrr}
    (whole : payload = front ++ (replyBlock reply ++ back)) (report : RttReport) :
    parseBlock payload front.length 16 report = some (some { report with replies := report.replies ++ [reply] }) := by
  have type := read8_block whole 0 (by decide)
  have first := @read32_block payload front [] (put32 reply.lastRr ++ put32 reply.delay ++ back) 5 3 reply.ssrc
    (by rw [whole, replyBlock, blockOctets, blockOctets]; simp only [List.append_assoc, List.nil_append])
  have second := @read32_block payload front (put32 reply.ssrc) (put32 reply.delay ++ back) 5 3 reply.lastRr
    (by rw [whole, replyBlock, blockOctets, blockOctets]; simp only [List.append_assoc])
  have third := @read32_block payload front (put32 reply.ssrc ++ put32 reply.lastRr) back 5 3 reply.delay
    (by rw [whole, replyBlock, blockOctets, blockOctets]; simp only [List.append_assoc])
  have kind : byteAt (blockOctets 5 3 (put32 reply.ssrc ++ put32 reply.lastRr ++ put32 reply.delay)) 0 = 5 := rfl
  rw [kind, Nat.add_zero] at type
  rw [List.length_nil, Nat.add_zero] at first
  rw [put32_length] at second
  rw [List.length_append, put32_length, put32_length] at third
  rw [parseBlock, type]
  simp only [Option.bind_eq_bind, Option.bind_some]
  rw [if_neg (by decide), if_pos trivial, if_neg (by decide), show (16 - 4) / 12 = 1 from rfl]
  simp only [readReplies, Nat.add_assoc]
  rw [first, second, third]
  rfl

theorem parse_start {ssrc : BitVec 32} (rest : Bytes) :
    parse (put32 ssrc ++ rest) = parseBlocks (put32 ssrc ++ rest) (3 + rest.length + 1) 4 { senderSsrc := ssrc } := by
  have size : (put32 ssrc ++ rest).length = 3 + rest.length + 1 := by
    rw [List.length_append, put32_length]
    omega
  have sender : read32 (put32 ssrc ++ rest) 0 = some ssrc := read32_put32 [] rest ssrc
  rw [parse, if_neg (by omega), sender, size]
  rfl

theorem parseBlocks_done {payload : Bytes} {turns pos : Nat} (positive : 0 < turns) (past : payload.length ≤ pos)
    (report : RttReport) : parseBlocks payload turns pos report = some (some report) := by
  obtain ⟨rest, rfl⟩ := Nat.exists_eq_succ_of_ne_zero positive.ne'
  rw [parseBlocks, if_pos past]

theorem parse_time (ssrc : BitVec 32) (time : BitVec 64) :
    parse (put32 ssrc ++ timeOctets time) = some (some { senderSsrc := ssrc, referenceTime := some time }) := by
  have whole : put32 ssrc ++ timeOctets time = put32 ssrc ++ (timeOctets time ++ []) := by rw [List.append_nil]
  have turn := @parseBlocks_block _ _ _ _ _ _ whole rfl (3 + (timeOctets time).length) { senderSsrc := ssrc } _
    (parseBlock_time whole rfl)
  rw [put32_length] at turn
  rw [parse_start, turn]
  exact parseBlocks_done (by omega) (Nat.le_of_eq rfl) _

theorem parse_reply (ssrc : BitVec 32) (reply : Dlrr) :
    parse (put32 ssrc ++ replyBlock reply) = some (some { senderSsrc := ssrc, replies := [reply] }) := by
  have whole : put32 ssrc ++ replyBlock reply = put32 ssrc ++ (replyBlock reply ++ []) := by rw [List.append_nil]
  have turn := @parseBlocks_block _ _ _ _ _ _ whole rfl (3 + (replyBlock reply).length) { senderSsrc := ssrc } _
    (parseBlock_reply whole _)
  rw [put32_length] at turn
  rw [parse_start, turn]
  exact parseBlocks_done (by omega) (Nat.le_of_eq rfl) _

theorem parse_reply_time (ssrc : BitVec 32) (reply : Dlrr) (time : BitVec 64) :
    parse (put32 ssrc ++ (replyBlock reply ++ timeOctets time)) =
      some (some { senderSsrc := ssrc, referenceTime := some time, replies := [reply] }) := by
  have second : put32 ssrc ++ (replyBlock reply ++ timeOctets time) =
      (put32 ssrc ++ replyBlock reply) ++ (timeOctets time ++ []) := by rw [List.append_nil, List.append_assoc]
  have size : (replyBlock reply ++ timeOctets time).length = 28 := rfl
  have first := @parseBlocks_block _ _ _ _ _ _ (@rfl _ (put32 ssrc ++ (replyBlock reply ++ timeOctets time)))
    rfl 31 { senderSsrc := ssrc } _ (parseBlock_reply rfl _)
  have last := @parseBlocks_block _ _ _ _ _ _ second rfl 30 { senderSsrc := ssrc, replies := [reply] } _
    (parseBlock_time second rfl)
  have place : (put32 ssrc ++ replyBlock reply).length = 20 := rfl
  rw [put32_length] at first
  rw [place] at last
  rw [parse_start, size]
  exact first.trans (last.trans (parseBlocks_done (by omega) (Nat.le_of_eq rfl) _))

end MiniRtc.Rtcp.RttReport

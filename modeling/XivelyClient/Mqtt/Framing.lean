import XivelyClient.Mqtt.Bodies
import XivelyClient.Mqtt.Chunking
import Mathlib.Tactic.Ring

/-! The parser on a packet as a whole: the fixed header leads to the body of its type, and what becomes of
the body tells when a packet is taken as it is framed and when it is taken at its last byte. -/
namespace XivelyClient.Mqtt.ParserExecute
open Resumable Wire

section Digits

private theorem topBit (b : UInt8) : b &&& 0x80 = 0 ↔ b.toNat < 128 := by
  have table : ∀ n < 256, (UInt8.ofNat n &&& 0x80 = 0 ↔ n < 128) := by decide +kernel
  have entry := table b.toNat b.toNat_lt
  rwa [UInt8.ofNat_toNat] at entry

private theorem lowBits (b : UInt8) : (b &&& 0x7f).toNat = b.toNat % 128 := by
  have mask : (0x7f : UInt8).toNat = 2 ^ 7 - 1 := rfl
  rw [UInt8.toNat_and,mask,Nat.and_two_pow_sub_one_eq_mod]

@[simp] theorem addDigit_remainingLength (regs : Registers) (b : UInt8) : (addDigit regs b).remainingLength =
    regs.remainingLength + b.toNat % 128 * regs.multiplier := by
  rw [addDigit,lowBits]

@[simp] theorem addDigit_dataLength (regs : Registers) (b : UInt8) :
    (addDigit regs b).dataLength = regs.dataLength := rfl

@[simp] theorem addDigit_digitBytes (regs : Registers) (b : UInt8) :
    (addDigit regs b).digitBytes = regs.digitBytes := rfl

@[simp] theorem addDigit_multiplier (regs : Registers) (b : UInt8) :
    (addDigit regs b).multiplier = regs.multiplier * 128 := rfl

/-- The frame behind a digit that another one follows. -/
private def moreDigit (f : Frame) (b : UInt8) : Frame :=
  {f with regs := {addDigit f.regs b with digitBytes := f.regs.digitBytes + 1}}

private theorem remainingLength_last (f : Frame) {b : UInt8} (low : b.toNat < 128) (src : List UInt8) :
    remainingLength f (b :: src) = afterRemainingLength {f with regs := addDigit f.regs b} src := by
  have stays : ¬ ((b &&& 0x80) ≠ 0 ∧ f.regs.digitBytes < 4) := fun h => h.1 ((topBit b).mpr low)
  have small : ¬ 0x80 ≤ b := by
    rw [UInt8.le_iff_toNat_le]
    exact Nat.not_le.mpr low
  rw [remainingLength_cons,if_neg stays,if_neg small]

private theorem remainingLength_more (f : Frame) {b : UInt8} (high : 128 ≤ b.toNat)
    (room : f.regs.digitBytes < 4) (src : List UInt8) :
    remainingLength f (b :: src) = yieldOn .remainingLength remainingLength (moreDigit f b) src := by
  have goes : (b &&& 0x80) ≠ 0 ∧ f.regs.digitBytes < 4 := by
    refine ⟨?_,room⟩
    rw [ne_eq,topBit]
    omega
  rw [remainingLength_cons,if_pos goes]
  rfl

private theorem remainingLength_full (f : Frame) {b : UInt8} (high : 128 ≤ b.toNat)
    (full : f.regs.digitBytes = 4) (src : List UInt8) :
    ∃ g, remainingLength f (b :: src) = .done .mqttParserError g (b :: src) := by
  have stays : ¬ ((b &&& 0x80) ≠ 0 ∧ f.regs.digitBytes < 4) := by omega
  have large : 0x80 ≤ b := UInt8.le_iff_toNat_le.mpr high
  rw [remainingLength_cons,if_neg stays,if_pos large]
  exact ⟨_,rfl⟩

/-- Some digits lead behind the loop, with their value in the registers. -/
private theorem remainingLength_digits {ds : List UInt8} (digits : Base128.Digits ds) (f : Frame)
    (short : f.regs.digitBytes + ds.length ≤ 5) (tail : List UInt8) :
    ∃ g, remainingLength f (ds ++ tail) = afterRemainingLength g tail ∧ g.readCs = f.readCs ∧
      g.message = f.message ∧ g.regs.dataLength = f.regs.dataLength ∧
      g.regs.digitBytes + 1 = f.regs.digitBytes + ds.length ∧
      g.regs.remainingLength = f.regs.remainingLength + f.regs.multiplier * Base128.value ds := by
  induction digits generalizing f with
  | @last b low =>
    refine ⟨_,remainingLength_last f low tail,rfl,rfl,rfl,rfl,?_⟩
    simp [Base128.value,Nat.mul_comm]
  | @more b ds high digits ih =>
    have position := digits.length_pos
    have left : ds ++ tail ≠ [] := by
      intro empty
      rw [(List.append_eq_nil_iff.mp empty).1] at position
      exact absurd position (by simp)
    rw [List.length_cons] at short ⊢
    have counted : (moreDigit f b).regs.digitBytes = f.regs.digitBytes + 1 := rfl
    obtain ⟨g,reached,idle,message,data,bytes,value⟩ := ih (moreDigit f b) (by omega)
    refine ⟨g,?_,idle,message,data,by omega,?_⟩
    · rw [List.cons_append,remainingLength_more f high (by omega),yieldOn_of_ne_nil left]
      exact reached
    · rw [value,Base128.value]
      simp only [moreDigit,addDigit_remainingLength,addDigit_multiplier]
      ring

/-- Four digits that all announce another one are refused. -/
private theorem remainingLength_long (ds : List UInt8) (f : Frame) (nonempty : ds ≠ [])
    (long : f.regs.digitBytes + ds.length = 5) (all : ∀ b ∈ ds, 128 ≤ b.toNat) (tail : List UInt8) :
    ∃ g rest, remainingLength f (ds ++ tail) = .done .mqttParserError g rest := by
  induction ds generalizing f with
  | nil => exact absurd rfl nonempty
  | cons b ds ih =>
    have high := all b (by simp)
    rw [List.length_cons] at long
    cases ds with
    | nil =>
      obtain ⟨g,refused⟩ := remainingLength_full f high (by simpa using long) tail
      exact ⟨g,b :: tail,refused⟩
    | cons c ds =>
      rw [List.cons_append,remainingLength_more f high (by rw [List.length_cons] at long; omega),
        yieldOn_of_ne_nil (by simp)]
      have counted : (moreDigit f b).regs.digitBytes = f.regs.digitBytes + 1 := rfl
      exact ih (moreDigit f b) (by simp) (by omega) (fun d member => all d (by simp [member]))

/-- Fewer than four of them, with nothing behind, are waited with. -/
private theorem remainingLength_waits (src : List UInt8) (f : Frame) (short : f.regs.digitBytes + src.length ≤ 4)
    (all : ∀ b ∈ src, 128 ≤ b.toNat) : Waits (yieldOn .remainingLength remainingLength) f src := by
  induction src generalizing f with
  | nil => exact .nil
  | cons b src ih =>
    rw [List.length_cons] at short
    have counted : (moreDigit f b).regs.digitBytes = f.regs.digitBytes + 1 := rfl
    have next := ih (moreDigit f b) (by omega) (fun c member => all c (by simp [member]))
    rw [Waits,yieldOn_of_ne_nil (by simp),remainingLength_more f (all b (by simp)) (by omega)]
    exact next

end Digits

section Fixed

/-- A fresh parser in front of some bytes. -/
def fresh (localState : XiState) : Frame := ⟨localState,.start,{},{}⟩

/-- The frame behind the first byte. -/
private def afterFirst (first : UInt8) : Frame :=
  ⟨.ok,.start,{digitBytes := 1,multiplier := 1,remainingLength := 0,dataLength := 1},{common := {commonValue := first}}⟩

private theorem start_first (localState : XiState) (first : UInt8) (src : List UInt8) :
    start (fresh localState) (first :: src) =
      yieldOn .remainingLength remainingLength (afterFirst first) src := rfl

/-- The frame in which the body is read. -/
private def beforeBody (f : Frame) : Frame := {f with
  message := {f.message with common := {f.message.common with
    remainingLength := UInt32.ofNat f.regs.remainingLength}}
  regs := {f.regs with dataLength := f.regs.dataLength + 1}}

/-- Behind a fixed header the parser comes to the body of the packet's type. -/
theorem start_header (localState : XiState) {src : List UInt8} (header : Header src) :
    ∃ f, start (fresh localState) src = packetBody f.message.common.type f header.tail ∧ AtBody f ∧
      f.message.common = header.common ∧ f.regs.digitBytes = header.digits.length ∧
      f.regs.remainingLength = header.remainingLength := by
  have position := header.valid.length_pos
  have bound := header.remainingLength_le
  have left : header.digits ++ header.tail ≠ [] := by
    intro empty
    rw [(List.append_eq_nil_iff.mp empty).1] at position
    exact absurd position (by simp)
  have one : (afterFirst header.first).regs.digitBytes = 1 := rfl
  have short := header.short
  obtain ⟨g,reached,idle,message,data,bytes,value⟩ := remainingLength_digits header.valid
    (afterFirst header.first) (by omega) header.tail
  have length : g.regs.remainingLength = header.remainingLength := by
    rw [value]
    simp [afterFirst,Header.remainingLength]
  have common : (beforeBody g).message.common = header.common := by
    simp only [beforeBody,message,length]
    rfl
  refine ⟨beforeBody g,?_,⟨idle,?_,?_,?_⟩,common,?_,length⟩
  · have entered := congrArg (start (fresh localState)) header.split
    rw [start_first,yieldOn_of_ne_nil left,reached] at entered
    exact entered
  · simp only [beforeBody,message]
    rfl
  · simp only [beforeBody,data]
    rfl
  · exact length.trans_le bound
  · change g.regs.digitBytes = _
    omega

/-- Bytes that begin with no fixed header are refused or waited with. -/
theorem start_without_header (localState : XiState) {src : List UInt8} (headless : IsEmpty (Header src)) :
    Waits start (fresh localState) src ∨
      ∃ g rest, start (fresh localState) src = .done .mqttParserError g rest := by
  cases src with
  | nil => exact .inl (.inl ⟨_,_,rfl⟩)
  | cons first src =>
    rw [Waits,start_first]
    have one : (afterFirst first).regs.digitBytes = 1 := rfl
    rcases Base128.classify 4 src with ⟨ds,tail,rfl,digits,short⟩ | ⟨short,all⟩ | ⟨ds,tail,rfl,long,all⟩
    · exact headless.elim ⟨first,ds,tail,rfl,digits,short⟩
    · exact .inl (remainingLength_waits src (afterFirst first) (by omega) all)
    · have nonempty : ds ≠ [] := by
        rintro rfl
        exact absurd long (by simp)
      rw [yieldOn_of_ne_nil (by simp [nonempty])]
      exact .inr (remainingLength_long ds (afterFirst first) nonempty (by omega) all tail)

end Fixed

end XivelyClient.Mqtt.ParserExecute

namespace XivelyClient.Mqtt
open Resumable Wire ParserExecute

/-- `chunks` is a way in which `src` can reach the parser. -/
def Cut (src : List UInt8) (chunks : List (List UInt8)) : Prop :=
  chunks.flatten = src ∧ ∀ chunk ∈ chunks, chunk ≠ []

section Runs

variable {src : List UInt8} {chunks : List (List UInt8)}

theorem Cut.run (cut : Cut src chunks) (localState : XiState) (nonempty : src ≠ []) :
    parserRun parserInit localState {} chunks = .ofStep (start (fresh localState) src) := by
  obtain ⟨rfl,nonempties⟩ := cut
  cases chunks with
  | nil => exact absurd rfl nonempty
  | cons chunk chunks => exact parserRun_flatten localState chunk chunks fun c member => nonempties c (by simp [member])

theorem Cut.run_nil (cut : Cut [] chunks) (localState : XiState) :
    parserRun parserInit localState {} chunks = .returned .wantRead parserInit localState {} [] := by
  cases chunks with
  | nil => rfl
  | cons chunk chunks => exact absurd (List.append_eq_nil_iff.mp cut.1).1 (cut.2 chunk (by simp))

/-- A readable body behind a header is delivered, and what is behind it is left. -/
theorem run_body (cut : Cut src chunks) (localState : XiState) (header : Header src) (body : Body)
    (rest : List UInt8) (split : header.tail = body.encode ++ rest)
    (readable : Readable header.common header.remainingLength body) (goes : rest ≠ [] ∨ Prompt body) :
    ∃ parser localState', parserRun parserInit localState {} chunks =
        .returned .ok parser localState' (decoded header.common body) rest ∧
      parser.digitBytes = header.digits.length ∧ parser.remainingLength = header.remainingLength := by
  obtain ⟨f,reached,atBody,common,bytes,length⟩ := start_header localState header
  rw [← common,← length] at readable
  obtain ⟨g,parsed,message,bytes',length'⟩ := body_parses atBody body readable goes
  rw [cut.run localState header.ne_nil,reached,split,parsed,← common,← message]
  exact ⟨_,_,rfl,bytes'.trans bytes,length'.trans length⟩

theorem run_error (cut : Cut src chunks) (localState : XiState) (header : Header src)
    (bad : ¬ Supported header.common.type ∨ Refused header.common header.tail) :
    ∃ parser localState' message rest, parserRun parserInit localState {} chunks =
      .returned .mqttParserError parser localState' message rest := by
  obtain ⟨f,reached,_,common,_⟩ := start_header localState header
  rw [← common] at bad
  obtain ⟨g,rest,refused⟩ := body_error bad
  rw [cut.run localState header.ne_nil,reached,refused]
  exact ⟨_,_,_,_,rfl⟩

private theorem ofStep_ok {st : Step Cs Frame UInt8 XiState} {parser : Parser} {localState : XiState}
    {message : Message} {rest : List UInt8}
    (ended : Executed.ofStep st = .returned .ok parser localState message rest) :
    ∃ f, st = .done .ok f rest ∧ message = f.message ∧ parser.digitBytes = f.regs.digitBytes ∧
      parser.remainingLength = f.regs.remainingLength := by
  cases st with
  | more c f => exact absurd ended (by simp [Executed.ofStep])
  | fault => exact absurd ended (by simp [Executed.ofStep])
  | done state f left =>
    simp only [Executed.ofStep,Executed.returned.injEq] at ended
    obtain ⟨rfl,rfl,_,rfl,rfl⟩ := ended
    exact ⟨f,rfl,rfl,rfl,rfl⟩

theorem not_waits_of_done {k : Block Cs Frame UInt8 XiState} {f g : Frame} {state : XiState}
    {rest : List UInt8} (done : k f src = .done state g rest) : ¬ Waits k f src := by
  rw [Waits,done]
  simp

/-- What the parser delivers is a header and a readable body; what is behind it is left. -/
theorem run_ok (cut : Cut src chunks) {localState localState' : XiState} {parser : Parser} {message : Message}
    {rest : List UInt8} (delivered : parserRun parserInit localState {} chunks =
      .returned .ok parser localState' message rest) :
    ∃ (header : Header src) (body : Body), header.tail = body.encode ++ rest ∧
      Readable header.common header.remainingLength body ∧ (rest ≠ [] ∨ Prompt body) ∧
      parser.digitBytes = header.digits.length ∧ parser.remainingLength = header.remainingLength ∧
      message = decoded header.common body := by
  by_cases nonempty : src = []
  · subst nonempty
    rw [cut.run_nil] at delivered
    exact absurd delivered (by simp)
  rw [cut.run localState nonempty] at delivered
  obtain ⟨g,done,rfl,bytes',length'⟩ := ofStep_ok delivered
  rcases isEmpty_or_nonempty (Header src) with headless | ⟨⟨header⟩⟩
  · rcases start_without_header localState headless with waits | ⟨g',left,refused⟩
    · exact absurd waits (not_waits_of_done done)
    · rw [refused] at done
      exact absurd done (by simp)
  · obtain ⟨f,reached,atBody,common,bytes,length⟩ := start_header localState header
    rw [reached] at done
    have good : ¬ (¬ Supported f.message.common.type ∨ Refused f.message.common header.tail) := by
      intro bad
      obtain ⟨g',left,refused⟩ := body_error bad
      rw [refused] at done
      exact absurd done (by simp)
    rw [not_or,not_not] at good
    obtain ⟨body,left,split,readable,goes⟩ := body_cases atBody (not_waits_of_done done) good.1 good.2
    obtain ⟨g',parsed,message,same,same'⟩ := body_parses atBody body readable goes
    rw [← split,done] at parsed
    simp only [Step.done.injEq,true_and] at parsed
    obtain ⟨rfl,rfl⟩ := parsed
    rw [common,length] at readable
    rw [common] at message
    exact ⟨header,body,split,readable,goes,(bytes'.trans same).trans bytes,(length'.trans same').trans length,
      message⟩

/-- The parser refuses nothing behind a fixed header but an unsupported type and a bad SUBACK status. -/
theorem run_refused (cut : Cut src chunks) (header : Header src) {localState localState' : XiState}
    {parser : Parser} {message : Message} {rest : List UInt8} (refused : parserRun parserInit localState {} chunks =
      .returned .mqttParserError parser localState' message rest) :
    ¬ Supported header.common.type ∨ Refused header.common header.tail := by
  by_contra good
  rw [not_or,not_not] at good
  obtain ⟨f,reached,atBody,common,_,_⟩ := start_header localState header
  rw [cut.run localState header.ne_nil,reached] at refused
  rw [← common] at good
  by_cases waits : Waits (packetBody f.message.common.type) f header.tail
  · rcases waits with ⟨c,g,more⟩ | fault
    · rw [more] at refused
      exact absurd refused (by simp [Executed.ofStep])
    · rw [fault] at refused
      exact absurd refused (by simp [Executed.ofStep])
  · obtain ⟨body,left,split,readable,goes⟩ := body_cases atBody waits good.1 good.2
    obtain ⟨g,parsed,_⟩ := body_parses atBody body readable goes
    rw [split,parsed] at refused
    exact absurd refused (by simp [Executed.ofStep])

end Runs

section Frames

variable {src : List UInt8} {chunks : List (List UInt8)}

/-- The frame of the fixed header is kept: a message that is delivered took the bytes that its header
announces, and a packet that is no body of its type is refused. -/
structure Framed (src : List UInt8) : Prop where
  boundary : ∀ localState chunks, Cut src chunks → ∀ parser localState' message rest,
    parserRun parserInit localState {} chunks = .returned .ok parser localState' message rest →
    ∃ packet, src = packet ++ rest ∧ packet.length = 1 + parser.digitBytes + parser.remainingLength
  refused : ∀ localState chunks, Cut src chunks → ∀ header : Header src,
    header.remainingLength ≤ header.tail.length →
    ¬ Fits header.common (header.tail.take header.remainingLength) →
    ∃ parser localState' message rest, parserRun parserInit localState {} chunks =
      .returned .mqttParserError parser localState' message rest

/-- Bytes of a supported packet that are a body of its type as far as they are there. Short of the remaining
length, nothing but a PUBLISH may look whole. -/
def Consistent (header : Header src) : Prop :=
  (header.remainingLength ≤ header.tail.length ∧
    Fits header.common (header.tail.take header.remainingLength)) ∨
  (header.tail.length < header.remainingLength ∧ (header.common.type = .publish ∨
    ¬ ∃ (body : Body) (rest : List UInt8), body.Matches header.common ∧ body.Accepted ∧
      header.tail = body.encode ++ rest ∧ (rest ≠ [] ∨ Prompt body)))

theorem readable_of_matches {common : Common} {body : Body} (matching : body.Matches common)
    (accepted : body.Accepted) (other : common.type ≠ .publish) (length : Nat) : Readable common length body := by
  refine ⟨matching,accepted,?_⟩
  cases body with
  | publish topic id payload => exact absurd matching.1 other
  | _ => trivial

theorem delimited_of_length {body : Body} : Delimited body.encode.length body := by
  cases body <;> simp [Delimited]

/-- With all its bytes there, a consistent packet is read as it is framed. -/
private theorem body_length (header : Header src) (body : Body) (rest : List UInt8)
    (split : header.tail = body.encode ++ rest) (goes : rest ≠ [] ∨ Prompt body)
    (readable : Readable header.common header.remainingLength body)
    (good : ¬ Refused header.common header.tail) (consistent : Consistent header) :
    body.encode.length = header.remainingLength := by
  rcases consistent with ⟨whole,body',matching',taken⟩ | ⟨short,early⟩
  · have length' : body'.encode.length = header.remainingLength := by
      rw [← taken,List.length_take_of_le whole]
    have split' : header.tail = body'.encode ++ header.tail.drop header.remainingLength := by
      rw [← taken,List.take_append_drop]
    have accepted' : body'.Accepted := by
      by_contra refused
      exact good ⟨body',_,matching',refused,split'⟩
    have readable' : Readable header.common header.remainingLength body' :=
      ⟨matching',accepted',length' ▸ delimited_of_length⟩
    have left := (body_unique header.remainingLength_le readable readable' (split.symm.trans split')).1
    have lengths := congrArg List.length (split.symm.trans split')
    rw [left,List.length_append,List.length_append] at lengths
    omega
  · have total := congrArg List.length split
    rw [List.length_append] at total
    by_cases publish : header.common.type = .publish
    · cases body with
      | publish topic id payload =>
        have delimited : (Body.publish topic id payload).encode.length = _ := readable.delimited
        omega
      | _ =>
        have matching := readable.matching
        simp [Body.Matches,publish] at matching
    · exact absurd ⟨body,rest,readable.matching,readable.accepted,split,goes⟩ (early.resolve_left publish)

private theorem not_error (cut : Cut src chunks) (header : Header src) {localState localState' : XiState}
    {parser : Parser} {message : Message} {rest : List UInt8} (delivered : parserRun parserInit localState {} chunks =
      .returned .ok parser localState' message rest) :
    ¬ (¬ Supported header.common.type ∨ Refused header.common header.tail) := by
  intro bad
  obtain ⟨parser',state',message',rest',refused⟩ := run_error cut localState header bad
  rw [refused] at delivered
  exact absurd delivered (by simp)

/-- The parser keeps the frame exactly on these inputs. Its errors are an unsupported type and a bad SUBACK
status; an inner length that disagrees with the remaining length is none of them. -/
theorem framed_iff (src : List UInt8) : Framed src ↔ ∀ header : Header src,
    ¬ Supported header.common.type ∨ Refused header.common header.tail ∨ Consistent header := by
  constructor
  · intro framed header
    by_contra bad
    simp only [not_or,not_not] at bad
    obtain ⟨supported,good,inconsistent⟩ := bad
    have cut : Cut src [src] := ⟨by simp,by simp [header.ne_nil]⟩
    rcases Nat.lt_or_ge header.tail.length header.remainingLength with short | whole
    · have early : ¬ (header.common.type = .publish ∨ _) := fun h => inconsistent (.inr ⟨short,h⟩)
      rw [not_or,not_not] at early
      obtain ⟨other,body,rest,matching,accepted,split,goes⟩ := early
      obtain ⟨parser,localState',delivered,bytes,length⟩ := run_body cut .ok header body rest split
        (readable_of_matches matching accepted other _) goes
      obtain ⟨packet,cutOff,total⟩ := framed.boundary .ok [src] cut _ _ _ _ delivered
      have sizes := congrArg List.length (header.split.symm.trans cutOff)
      simp only [List.length_cons,List.length_append] at sizes
      omega
    · have unfit : ¬ Fits header.common (header.tail.take header.remainingLength) :=
        fun fits => inconsistent (.inl ⟨whole,fits⟩)
      obtain ⟨parser,localState',message,rest,refused⟩ := framed.refused .ok [src] cut header whole unfit
      rcases run_refused cut header refused with unsupported | refused
      · exact unsupported supported
      · exact good refused
  · intro consistent
    refine ⟨?_,?_⟩
    · intro localState chunks cut parser localState' message rest delivered
      obtain ⟨header,body,split,readable,goes,bytes,length,_⟩ := run_ok cut delivered
      have fine := not_error cut header delivered
      rw [not_or] at fine
      have keeps := ((consistent header).resolve_left fine.1).resolve_left fine.2
      have sized := body_length header body rest split goes readable fine.2 keeps
      refine ⟨header.first :: (header.digits ++ body.encode),?_,?_⟩
      · have whole := header.split
        rw [split] at whole
        simpa using whole
      · rw [List.length_cons,List.length_append,bytes,length,sized]
        omega
    · intro localState chunks cut header whole unfit
      refine run_error cut localState header ?_
      rcases consistent header with bad | bad | ⟨_,fits⟩ | ⟨short,_⟩
      · exact .inl bad
      · exact .inr bad
      · exact absurd fits unfit
      · omega

/-- A PUBACK that announces no byte takes two that are not its own. -/
theorem puback_overrun : ¬ Framed [0x40,0x00,0x00,0x01] := by
  intro framed
  have cut : Cut [0x40,0x00,0x00,0x01] [[0x40,0x00,0x00,0x01]] := ⟨rfl,by simp⟩
  have delivered : parserRun parserInit .ok {} [[0x40,0x00,0x00,0x01]] = .returned .ok
      {digitBytes := 1,multiplier := 128,dataLength := 4} .ok
      {common := {commonValue := 0x40},puback := ⟨1⟩} [] := by decide
  obtain ⟨packet,split,length⟩ := framed.boundary .ok _ cut _ _ _ _ delivered
  rw [List.append_nil] at split
  rw [← split] at length
  exact absurd length (by decide)

end Frames

section Packets

/-- A complete packet of a supported type. -/
structure Packet where
  first : UInt8
  digits : List UInt8
  body : Body
  valid : Base128.Digits digits
  short : digits.length ≤ 4
  framed : Base128.value digits = body.encode.length
  matching : body.Matches ⟨first,UInt32.ofNat (Base128.value digits)⟩
  accepted : body.Accepted

namespace Packet

def bytes (packet : Packet) : List UInt8 := packet.first :: (packet.digits ++ packet.body.encode)

def header (packet : Packet) (rest : List UInt8) : Header (packet.bytes ++ rest) :=
  ⟨packet.first,packet.digits,packet.body.encode ++ rest,by simp [bytes],packet.valid,packet.short⟩

def common (packet : Packet) : Common := ⟨packet.first,UInt32.ofNat (Base128.value packet.digits)⟩

theorem readable (packet : Packet) : Readable packet.common (Base128.value packet.digits) packet.body := by
  refine ⟨packet.matching,packet.accepted,?_⟩
  rw [packet.framed]
  exact delimited_of_length

/-- A packet with something behind it is delivered, however it is cut. -/
theorem delivered (packet : Packet) {rest : List UInt8} {chunks : List (List UInt8)}
    (cut : Cut (packet.bytes ++ rest) chunks) (localState : XiState) (goes : rest ≠ [] ∨ Prompt packet.body) :
    ∃ parser localState', parserRun parserInit localState {} chunks =
      .returned .ok parser localState' (decoded packet.common packet.body) rest := by
  obtain ⟨parser,localState',run,_⟩ := run_body cut localState (packet.header rest) packet.body rest rfl
    packet.readable goes
  exact ⟨parser,localState',run⟩

/-- Delivered at its last byte: with nothing behind it the parser answers OK and has used up its bytes. -/
def DeliveredAtLastByte (packet : Packet) : Prop :=
  ∀ localState chunks, Cut packet.bytes chunks → ∃ parser localState' message,
    parserRun parserInit localState {} chunks = .returned .ok parser localState' message []

/-- The descriptor of the string that a CONNECT ends with. -/
private def lastDesc (connect : Connect) : Option DataDesc :=
  connect.password.or (connect.username.or (connect.willMessage.or connect.clientId))

private theorem lastDesc_decoded (c : ConnectBody) : lastDesc (decodedConnect c) = some (descOf c.lastText.val) := by
  rw [lastDesc,ConnectBody.lastText]
  cases hp : c.password <;> cases hu : c.username <;> cases hw : c.willMessage <;>
    simp [decodedConnect,hp,hu,hw]

private theorem lastText_decoded {c c' : ConnectBody} (same : decodedConnect c = decodedConnect c') :
    c.lastText.val = c'.lastText.val := by
  have descs := (lastDesc_decoded c).symm.trans ((congrArg lastDesc same).trans (lastDesc_decoded c'))
  have datas := congrArg DataDesc.data (Option.some.inj descs)
  have small := c.lastText.property
  have small' := c'.lastText.property
  rwa [descOf_data _ (by omega),descOf_data _ (by omega)] at datas

private theorem prompt_of_decoded {common : Common} {body body' : Body} (matching : body.Matches common)
    (matching' : body'.Matches common) (same : decoded common body = decoded common body')
    (prompt : Prompt body') : Prompt body := by
  cases body with
  | connect c =>
    have type : common.type = .connect := matching
    cases body' with
    | connect c' =>
      have last := lastText_decoded (congrArg Message.connect same)
      rw [Prompt] at prompt ⊢
      rwa [last]
    | _ => simp [Body.Matches,type] at matching'
  | publish topic id payload =>
    obtain ⟨type,agrees⟩ : common.type = .publish ∧ _ := matching
    cases body' with
    | publish topic' id' payload' =>
      have content : contentOf payload = contentOf payload' :=
        congrArg (fun m => m.publish.content) same
      rcases prompt with present | nonempty
      · left
        rw [← Option.isSome_iff_ne_none] at present ⊢
        rwa [agrees,← matching'.2]
      · right
        intro empty
        rw [contentOf,contentOf,if_pos empty,if_neg nonempty] at content
        exact absurd content (by simp)
    | _ => simp [Body.Matches,type] at matching'
  | _ => trivial

theorem prompt_iff (body : Body) : Prompt body ↔ ¬ ((∃ topic, body = .publish topic none []) ∨
    ∃ connect : ConnectBody, body = .connect connect ∧ connect.lastText.val = []) := by
  cases body with
  | connect c => simp [Prompt]
  | publish topic id payload =>
    simp only [Prompt,Body.publish.injEq,reduceCtorEq,false_and,exists_false,or_false]
    rw [← not_and_or]
    simp
  | _ => simp [Prompt]

/-- A packet is delivered at its last byte unless it ends in a field that may be empty and is. -/
theorem deliveredAtLastByte_iff (packet : Packet) : packet.DeliveredAtLastByte ↔
    ¬ ((∃ topic, packet.body = .publish topic none []) ∨
      ∃ connect : ConnectBody, packet.body = .connect connect ∧ connect.lastText.val = []) := by
  rw [← prompt_iff]
  constructor
  · intro delivered
    have cut : Cut packet.bytes [packet.bytes] := ⟨by simp,by simp [bytes]⟩
    obtain ⟨parser,localState,message,run⟩ := delivered .ok [packet.bytes] cut
    obtain ⟨header,body,split,readable,goes,_⟩ := run_ok cut run
    have own : header = ⟨packet.first,packet.digits,packet.body.encode,rfl,packet.valid,packet.short⟩ :=
      header.unique _
    subst own
    have whole : packet.body.encode ++ [] = body.encode ++ [] := by simpa using split
    have bound := (packet.header []).remainingLength_le
    have same := (body_unique bound packet.readable readable whole).2
    exact prompt_of_decoded packet.matching readable.matching same (goes.resolve_left (by simp))
  · intro prompt localState chunks cut
    rw [← List.append_nil packet.bytes] at cut
    obtain ⟨parser,localState',run⟩ := packet.delivered cut localState (.inr prompt)
    exact ⟨parser,localState',_,run⟩

/-- PUBLISH at QoS 0 to the topic "a", with no payload. -/
theorem emptyPublish_waits : ¬ (Packet.mk 0x30 [0x03] (.publish ⟨[0x61],by decide⟩ none [])
    (.last (by decide)) (by decide) rfl ⟨rfl,rfl⟩ trivial).DeliveredAtLastByte := by
  intro delivered
  obtain ⟨parser,localState,message,run⟩ := delivered .ok [[0x30,0x03,0x00,0x01,0x61]] ⟨rfl,by decide⟩
  have state : ∃ parser localState message, parserRun parserInit .ok {} [[0x30,0x03,0x00,0x01,0x61]] =
      .returned .wantRead parser localState message [] := ⟨_,_,_,rfl⟩
  obtain ⟨parser',localState',message',waits⟩ := state
  rw [waits] at run
  exact absurd run (by simp)

end Packet

end Packets

end XivelyClient.Mqtt

import XivelyClient.Checksum.Standard
import XivelyClient.Sft.Message

/-! A file that comes in chunks has the checksum of the standard. -/
namespace XivelyClient.Checksum

open BlockFold Standard

/-- `xi_bsp_fwu_checksum_init`, with memory for the context; its buffer holds anything. -/
def checksumInit (buffer : List UInt8) (whole : buffer.length = 64) : Sha256Ctx := .init buffer whole

def checksumUpdate (shaCtx : Sha256Ctx) (data : List UInt8) (len : UInt32) : Sha256Ctx := shaCtx.update (data.take len.toNat)

def checksumFinal (shaCtx : Sha256Ctx) : List UInt8 := shaCtx.final

/-- The context stands for the bytes so far. -/
def Holds (ctx : Sha256Ctx) (fed : List UInt8) : Prop :=
  ∃ blocks, Absorbed 64 transform initialState fed ctx.state (ctx.data.take ctx.datalen) blocks ∧ ctx.bitlen = UInt64.ofNat (512 * blocks)

section Buffer

variable {data rest : List UInt8} {i n : Nat} {byte : UInt8}

theorem take_set_append (inside : i < data.length) : (data.take (i + 1) ++ rest).set i byte = data.take i ++ byte :: rest := by
  rw [List.take_succ_eq_append_getElem inside,List.append_assoc,List.set_append_right _ _ (by simp),List.length_take,
    Nat.min_eq_left (Nat.le_of_lt inside),Nat.sub_self]
  rfl

theorem take_set_last (inside : i < data.length) : (data.set i byte).take (i + 1) = data.take i ++ [byte] := by
  have whole := @take_set_append data [] i byte inside
  rwa [List.append_nil,← List.take_set] at whole

theorem zeroFrom_eq (inside : i + n ≤ data.length) : zeroFrom data i n = data.take i ++ List.replicate n 0 ++ data.drop (i + n) := by
  induction n generalizing data i with
  | zero => simp [zeroFrom]
  | succ n ih =>
    rw [zeroFrom,ih (by rw [List.length_set]; omega),take_set_last (by omega),List.drop_set_of_lt (by omega),List.replicate_succ,
      Nat.add_right_comm i 1 n,Nat.add_assoc i n 1,List.append_assoc (data.take i)]
    rfl

/-- The eight assignments, from the last byte on. -/
theorem putLength_eq (whole : data.length = 64) (bitlen : UInt64) :
    putLength data bitlen = data.take 56 ++ (List.range 8).reverse.map fun i => (bitlen >>> (8 * UInt64.ofNat i)).toUInt8 := by
  have put (left : Nat) (inside : left ≤ 8) :
      (List.range left).foldl (fun data i => data.set (63 - i) (bitlen >>> (8 * UInt64.ofNat i)).toUInt8) data =
        data.take (64 - left) ++ (List.range left).reverse.map fun i => (bitlen >>> (8 * UInt64.ofNat i)).toUInt8 := by
    induction left with
    | zero => simp [List.take_of_length_le (Nat.le_of_eq whole)]
    | succ left ih =>
      have last : 64 - left = 63 - left + 1 := by omega
      rw [List.range_succ,List.foldl_append,ih (by omega),List.foldl_cons,List.foldl_nil,last,take_set_append (by omega),
        List.reverse_append,List.map_append,Nat.add_comm left 1,← Nat.sub_sub]
      rfl
  exact put 8 (by decide)

end Buffer

section Bytes

theorem byte_of_word (word : UInt32) (i : Nat) (inside : i < 4) :
    ((word >>> (24 - UInt32.ofNat i * 8)) &&& 0x000000ff).toUInt8 = UInt8.ofNat (word.toNat / 256 ^ (3 - i)) := by
  have amounts : ∀ i < 4, (24 - UInt32.ofNat i * 8).toNat % 32 = 8 * (3 - i) := by decide
  apply UInt8.toNat_inj.mp
  rw [UInt32.toNat_toUInt8,UInt32.toNat_and,UInt32.toNat_shiftRight,amounts i inside,Nat.shiftRight_eq_div_pow,Nat.pow_mul]
  change (_ &&& (2 ^ 8 - 1)) % 2 ^ 8 = _ % 2 ^ 8
  rw [Nat.and_two_pow_sub_one_eq_mod,Nat.mod_mod]

theorem byte_of_bitlen (bits i : Nat) (inside : i < 8) :
    (UInt64.ofNat bits >>> (8 * UInt64.ofNat i)).toUInt8 = UInt8.ofNat (bits / 256 ^ i) := by
  have amounts : ∀ i < 8, (8 * UInt64.ofNat i).toNat % 64 = 8 * i := by decide
  have split : (2 : Nat) ^ 64 = 2 ^ (8 * i) * (2 ^ 8 * 2 ^ (56 - 8 * i)) := by
    rw [← Nat.pow_add,← Nat.pow_add]
    congr 1
    omega
  apply UInt8.toNat_inj.mp
  rw [UInt64.toNat_toUInt8,UInt64.toNat_shiftRight,amounts i inside,UInt64.toNat_ofNat',Nat.shiftRight_eq_div_pow,split,
    Nat.mod_mul_right_div_self,Nat.mod_mul_right_mod,Nat.pow_mul]
  rfl

theorem lengthBytes_eq (bits : Nat) :
    (List.range 8).reverse.map (fun i => (UInt64.ofNat bits >>> (8 * UInt64.ofNat i)).toUInt8) = BigEndian.bytes 8 bits := by
  have backwards : (List.range 8).reverse = (List.range 8).map fun i => 8 - 1 - i := by decide
  rw [BigEndian.bytes,backwards,List.map_map]
  exact List.map_congr_left fun i member => byte_of_bitlen bits (8 - 1 - i) (by have := List.mem_range.mp member; omega)

theorem hashBytes_eq (words : List UInt32) :
    (words.flatMap fun word => (List.range 4).map fun i => ((word >>> (24 - UInt32.ofNat i * 8)) &&& 0x000000ff).toUInt8) =
      words.flatMap fun word => BigEndian.bytes 4 word.toNat := by
  congr 1
  funext word
  exact List.map_congr_left fun i member => byte_of_word word i (List.mem_range.mp member)

end Bytes

section Stream

variable {ctx : Sha256Ctx} {fed : List UInt8}

theorem holds_init (buffer : List UInt8) (whole : buffer.length = 64) : Holds (checksumInit buffer whole) [] :=
  ⟨0,.start (by decide),rfl⟩

theorem Holds.take (holds : Holds ctx fed) (byte : UInt8) : Holds (ctx.take byte) (fed ++ [byte]) := by
  obtain ⟨blocks,absorbed,bits⟩ := holds
  have room := ctx.room
  have inside : ctx.datalen < ctx.data.length := by rw [ctx.whole]; exact room
  have waits : (ctx.data.take ctx.datalen).length = ctx.datalen := by rw [List.length_take]; omega
  unfold Sha256Ctx.take
  by_cases full : ctx.datalen + 1 = 64
  · simp only [full,dite_true]
    have block : ctx.data.set ctx.datalen byte = ctx.data.take ctx.datalen ++ [byte] := by
      rw [← take_set_last inside,List.take_of_length_le]
      rw [List.length_set,ctx.whole]
      omega
    refine ⟨blocks + 1,?_,?_⟩
    · have filled := absorbed.fill byte (by rw [waits]; exact full)
      rw [← block] at filled
      exact filled
    · rw [bits,Nat.mul_succ,UInt64.ofNat_add]
      rfl
  · simp only [full,dite_false]
    refine ⟨blocks,?_,bits⟩
    have longer := absorbed.wait byte (by rw [waits]; omega)
    rw [← take_set_last inside] at longer
    exact longer

theorem Holds.update (holds : Holds ctx fed) (data : List UInt8) : Holds (ctx.update data) (fed ++ data) := by
  induction data generalizing ctx fed with
  | nil => simpa [Sha256Ctx.update] using holds
  | cons byte data ih =>
    have next := ih (holds.take byte)
    rwa [List.append_assoc] at next

theorem compressAll_hash (more : List UInt8) {state : Words} {waiting : List UInt8} {blocks : Nat}
    (absorbed : Absorbed 64 transform initialState fed state waiting blocks) :
    compressAll 64 compress initialHash (fed ++ more) = compressAll 64 transform state (waiting ++ more) := by
  have same : compress = transform := by
    funext state data
    exact (transform_eq state data).symm
  rw [initialHash_eq,same,absorbed.rest]

/-- The bytes of the last block before the length: those that wait, a bit, and zeros. -/
theorem filled_block (upto : Nat) (room : ctx.datalen < upto) (inside : upto ≤ 64) :
    (zeroFrom (ctx.data.set ctx.datalen 0x80) (ctx.datalen + 1) (upto - (ctx.datalen + 1))).take upto =
      ctx.data.take ctx.datalen ++ [0x80] ++ List.replicate (upto - (ctx.datalen + 1)) 0 := by
  have size : (ctx.data.set ctx.datalen 0x80).length = 64 := by rw [List.length_set,ctx.whole]
  rw [zeroFrom_eq (by omega),take_set_last (by rw [ctx.whole]; exact ctx.room),List.take_left']
  simp [ctx.whole]
  omega

theorem zeroFrom_length {data : List UInt8} (i n : Nat) (inside : i + n ≤ data.length) : (zeroFrom data i n).length = data.length := by
  rw [zeroFrom_eq inside]
  simp
  omega

/-- What is left of the last block, its padding and the length are the end of the standard's message. -/
theorem Holds.final (holds : Holds ctx fed) : ctx.final = secureHash fed := by
  obtain ⟨blocks,absorbed,bits⟩ := holds
  have room := ctx.room
  have size : (ctx.data.set ctx.datalen 0x80).length = 64 := by rw [List.length_set,ctx.whole]
  have waits : (ctx.data.take ctx.datalen).length = ctx.datalen := by
    rw [List.length_take,ctx.whole]
    omega
  have length := absorbed.length
  rw [waits] at length
  have total : ctx.bitlen + UInt64.ofNat (ctx.datalen * 8) = UInt64.ofNat (8 * fed.length) := by
    rw [bits,← UInt64.ofNat_add,length]
    congr 1
    omega
  have message := compressAll_hash ([0x80] ++ List.replicate ((119 - fed.length % 64) % 64) 0 ++ BigEndian.bytes 8 (8 * fed.length)) absorbed
  rw [← List.append_assoc,← List.append_assoc,← List.append_assoc,← List.append_assoc] at message
  rw [secureHash,pad,message,← hashBytes_eq]
  by_cases short : ctx.datalen < 56
  · have zeros : (119 - fed.length % 64) % 64 = 56 - (ctx.datalen + 1) := by omega
    have block : putLength (zeroFrom (ctx.data.set ctx.datalen 0x80) (ctx.datalen + 1) (56 - (ctx.datalen + 1)))
        (UInt64.ofNat (8 * fed.length)) = ctx.data.take ctx.datalen ++ [0x80] ++ List.replicate (56 - (ctx.datalen + 1)) 0 ++
          BigEndian.bytes 8 (8 * fed.length) := by
      rw [putLength_eq (by rw [zeroFrom_length _ _ (by omega)]; exact size),lengthBytes_eq,filled_block 56 short (by decide)]
    have whole := congrArg List.length block
    rw [zeros,← block,compressAll_one (by decide)]
    · simp only [Sha256Ctx.final,short,if_true,total]
    · rw [whole]
      simp [waits]
      omega
  · have zeros : (119 - fed.length % 64) % 64 = (64 - (ctx.datalen + 1)) + 56 := by omega
    have first : zeroFrom (ctx.data.set ctx.datalen 0x80) (ctx.datalen + 1) (64 - (ctx.datalen + 1)) =
        ctx.data.take ctx.datalen ++ [0x80] ++ List.replicate (64 - (ctx.datalen + 1)) 0 := by
      have filled := @filled_block ctx 64 room (by decide)
      rwa [List.take_of_length_le (by rw [zeroFrom_length _ _ (by omega)]; omega)] at filled
    have firstSize := @zeroFrom_length (ctx.data.set ctx.datalen 0x80) (ctx.datalen + 1) (64 - (ctx.datalen + 1)) (by omega)
    have second : putLength (zeroFrom (zeroFrom (ctx.data.set ctx.datalen 0x80) (ctx.datalen + 1) (64 - (ctx.datalen + 1))) 0 56)
        (UInt64.ofNat (8 * fed.length)) = List.replicate 56 0 ++ BigEndian.bytes 8 (8 * fed.length) := by
      have cleared := @zeroFrom_length (zeroFrom (ctx.data.set ctx.datalen 0x80) (ctx.datalen + 1) (64 - (ctx.datalen + 1))) 0 56
        (by omega)
      rw [putLength_eq (by omega),lengthBytes_eq,zeroFrom_eq (by omega),List.take_zero,List.nil_append,List.take_left' (by simp)]
    rw [zeros,List.replicate_add,← List.append_assoc,List.append_assoc _ (List.replicate 56 0),← first,← second,
      compressAll_block (by decide) (by omega),compressAll_one (by decide) (by rw [second]; simp)]
    simp only [Sha256Ctx.final,short,if_false,total]

/-- Chunks of any sizes, as a transfer feeds them. -/
theorem checksum_chunks (buffer : List UInt8) (whole : buffer.length = 64) (chunks : List Sft.FileChunk) :
    checksumFinal (chunks.foldl (fun shaCtx chunk => checksumUpdate shaCtx chunk.chunk chunk.length) (checksumInit buffer whole)) =
      secureHash (chunks.flatMap Sft.FileChunk.chunk) := by
  have fed (ctx : Sha256Ctx) (before : List UInt8) (holds : Holds ctx before) :
      Holds (chunks.foldl (fun shaCtx chunk => checksumUpdate shaCtx chunk.chunk chunk.length) ctx)
        (before ++ chunks.flatMap Sft.FileChunk.chunk) := by
    induction chunks generalizing ctx before with
    | nil => simpa using holds
    | cons chunk chunks ih =>
      have all : chunk.chunk.take chunk.length.toNat = chunk.chunk := by
        rw [Sft.FileChunk.length,UInt32.toNat_ofNat_of_lt' chunk.small,List.take_length]
      rw [List.foldl_cons,List.flatMap_cons,← List.append_assoc]
      apply ih
      rw [checksumUpdate,all]
      exact holds.update chunk.chunk
  exact (fed _ [] (holds_init buffer whole)).final

end Stream

/-- An empty chunk and one of three bytes. -/
theorem checksum_two_chunks : (List.replicate 64 (0 : UInt8)).length = 64 ∧
    checksumFinal (([⟨none,0,[],by decide⟩,⟨none,0,[97,98,99],by decide⟩] : List Sft.FileChunk).foldl
      (fun shaCtx chunk => checksumUpdate shaCtx chunk.chunk chunk.length) (checksumInit (List.replicate 64 0) (by decide))) =
        secureHash (([⟨none,0,[],by decide⟩,⟨none,0,[97,98,99],by decide⟩] : List Sft.FileChunk).flatMap Sft.FileChunk.chunk) :=
  ⟨by decide,checksum_chunks (List.replicate 64 0) (by decide) _⟩

end XivelyClient.Checksum

import XivelyClient.Lib.BlockFold
import Mathlib.Data.UInt

/-! The checksum of the boards without a library of their own (`sha256.c`, `xi_bsp_fwu_checksum_cryptoalgs.c`). -/
namespace XivelyClient.Checksum

open BlockFold

/-- Eight words: the state of a context, and the working variables `a` to `h` of one transform. -/
structure Words where
  a : UInt32
  b : UInt32
  c : UInt32
  d : UInt32
  e : UInt32
  f : UInt32
  g : UInt32
  h : UInt32
  deriving DecidableEq, Repr

def Words.toList (words : Words) : List UInt32 := [words.a,words.b,words.c,words.d,words.e,words.f,words.g,words.h]

def Words.add (x y : Words) : Words :=
  ⟨x.a + y.a,x.b + y.b,x.c + y.c,x.d + y.d,x.e + y.e,x.f + y.f,x.g + y.g,x.h + y.h⟩

def rotRight (a b : UInt32) : UInt32 := (a >>> b) ||| (a <<< (32 - b))

def ch (x y z : UInt32) : UInt32 := (x &&& y) ^^^ (~~~x &&& z)

def maj (x y z : UInt32) : UInt32 := (x &&& y) ^^^ (x &&& z) ^^^ (y &&& z)

def ep0 (x : UInt32) : UInt32 := rotRight x 2 ^^^ rotRight x 13 ^^^ rotRight x 22

def ep1 (x : UInt32) : UInt32 := rotRight x 6 ^^^ rotRight x 11 ^^^ rotRight x 25

def sig0 (x : UInt32) : UInt32 := rotRight x 7 ^^^ rotRight x 18 ^^^ (x >>> 3)

def sig1 (x : UInt32) : UInt32 := rotRight x 17 ^^^ rotRight x 19 ^^^ (x >>> 10)

def k : List UInt32 :=
  [0x428a2f98,0x71374491,0xb5c0fbcf,0xe9b5dba5,0x3956c25b,0x59f111f1,0x923f82a4,0xab1c5ed5,
    0xd807aa98,0x12835b01,0x243185be,0x550c7dc3,0x72be5d74,0x80deb1fe,0x9bdc06a7,0xc19bf174,
    0xe49b69c1,0xefbe4786,0x0fc19dc6,0x240ca1cc,0x2de92c6f,0x4a7484aa,0x5cb0a9dc,0x76f988da,
    0x983e5152,0xa831c66d,0xb00327c8,0xbf597fc7,0xc6e00bf3,0xd5a79147,0x06ca6351,0x14292967,
    0x27b70a85,0x2e1b2138,0x4d2c6dfc,0x53380d13,0x650a7354,0x766a0abb,0x81c2c92e,0x92722c85,
    0xa2bfe8a1,0xa81a664b,0xc24b8b70,0xc76c51a3,0xd192e819,0xd6990624,0xf40e3585,0x106aa070,
    0x19a4c116,0x1e376c08,0x2748774c,0x34b0bcb5,0x391c0cb3,0x4ed8aa4a,0x5b9cca4f,0x682e6ff3,
    0x748f82ee,0x78a5636f,0x84c87814,0x8cc70208,0x90befffa,0xa4506ceb,0xbef9a3f7,0xc67178f2]

/-- The word of four bytes from `data[j]` on. -/
def wordAt (data : List UInt8) (j : Nat) : UInt32 :=
  ((data.getD j 0).toUInt32 <<< 24) ||| ((data.getD (j + 1) 0).toUInt32 <<< 16) ||| ((data.getD (j + 2) 0).toUInt32 <<< 8) |||
    (data.getD (j + 3) 0).toUInt32

/-- The first loop fills `m` from the data. -/
def firstWords (data : List UInt8) : List UInt32 := (List.range 16).map fun i => wordAt data (4 * i)

/-- The second loop puts the next word behind those that are there, `i` of them. -/
def nextWord (m : List UInt32) : List UInt32 :=
  let i := m.length
  m ++ [sig1 (m.getD (i - 2) 0) + m.getD (i - 7) 0 + sig0 (m.getD (i - 15) 0) + m.getD (i - 16) 0]

def messageWords (data : List UInt8) : List UInt32 := nextWord^[48] (firstWords data)

/-- One turn of the third loop. -/
def turn (words : Words) (ki mi : UInt32) : Words :=
  let t1 := words.h + ep1 words.e + ch words.e words.f words.g + ki + mi
  let t2 := ep0 words.a + maj words.a words.b words.c
  ⟨t1 + t2,words.a,words.b,words.c,words.d + t1,words.e,words.f,words.g⟩

/-- `sha256_transform` -/
def transform (state : Words) (data : List UInt8) : Words :=
  state.add ((k.zip (messageWords data)).foldl (fun words (ki,mi) => turn words ki mi) state)

/-- `SHA256_CTX`, with the bounds of its buffer. -/
structure Sha256Ctx where
  data : List UInt8
  datalen : Nat
  bitlen : UInt64
  state : Words
  whole : data.length = 64
  room : datalen < 64

/-- The state that `sha256_init` sets. -/
def initialState : Words :=
  ⟨0x6a09e667,0xbb67ae85,0x3c6ef372,0xa54ff53a,0x510e527f,0x9b05688c,0x1f83d9ab,0x5be0cd19⟩

/-- `sha256_init`; what the buffer holds before stays. -/
def Sha256Ctx.init (data : List UInt8) (whole : data.length = 64) : Sha256Ctx where
  data := data
  datalen := 0
  bitlen := 0
  state := initialState
  whole := whole
  room := by decide

/-- One turn of the loop of `sha256_update`. -/
def Sha256Ctx.take (ctx : Sha256Ctx) (byte : UInt8) : Sha256Ctx :=
  let data := ctx.data.set ctx.datalen byte
  have whole : data.length = 64 := by rw [List.length_set,ctx.whole]
  if full : ctx.datalen + 1 = 64 then
    {data := data,datalen := 0,bitlen := ctx.bitlen + 512,state := transform ctx.state data,whole := whole,room := by decide}
  else {ctx with data := data,datalen := ctx.datalen + 1,whole := whole,room := by have room := ctx.room; omega}

/-- `sha256_update` on fewer than 2^32 bytes, as its counter has 32 bits. -/
def Sha256Ctx.update (ctx : Sha256Ctx) (data : List UInt8) : Sha256Ctx := data.foldl take ctx

/-- `while (i < upto) data[i++] = 0x00` -/
def zeroFrom (data : List UInt8) (i : Nat) : Nat → List UInt8
  | 0 => data
  | left + 1 => zeroFrom (data.set i 0) (i + 1) left

/-- The assignments to `data[63]` down to `data[56]`. -/
def putLength (data : List UInt8) (bitlen : UInt64) : List UInt8 :=
  (List.range 8).foldl (fun data i => data.set (63 - i) (bitlen >>> (8 * UInt64.ofNat i)).toUInt8) data

/-- `sha256_final`: the bytes of the hash. -/
def Sha256Ctx.final (ctx : Sha256Ctx) : List UInt8 :=
  let data := ctx.data.set ctx.datalen 0x80
  let (state,data) :=
    if ctx.datalen < 56 then (ctx.state,zeroFrom data (ctx.datalen + 1) (56 - (ctx.datalen + 1)))
    else
      let data := zeroFrom data (ctx.datalen + 1) (64 - (ctx.datalen + 1))
      (transform ctx.state data,zeroFrom data 0 56)
  let bitlen := ctx.bitlen + UInt64.ofNat (ctx.datalen * 8)
  (transform state (putLength data bitlen)).toList.flatMap fun word =>
    (List.range 4).map fun i => ((word >>> (24 - UInt32.ofNat i * 8)) &&& 0x000000ff).toUInt8

end XivelyClient.Checksum

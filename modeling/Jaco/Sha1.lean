import Mathlib

namespace Jaco.Sha1

def rotl (x : UInt32) (n : UInt32) : UInt32 := (x <<< n) ||| (x >>> (32 - n))

def bigEndian (width n : Nat) : List UInt8 :=
  (List.range width).map (fun i => UInt8.ofNat (n / 256 ^ (width - 1 - i)))

def pad (message : List UInt8) : List UInt8 :=
  message ++ 0x80 :: List.replicate ((119 - message.length % 64) % 64) 0 ++ bigEndian 8 (8 * message.length % 2 ^ 64)

def word (bs : List UInt8) : UInt32 := bs.foldl (fun acc b => (acc <<< 8) ||| b.toUInt32) 0

def nextWord (ws : List UInt32) : UInt32 :=
  rotl (ws.getD 2 0 ^^^ ws.getD 7 0 ^^^ ws.getD 13 0 ^^^ ws.getD 15 0) 1

def schedule : Nat → List UInt32 → List UInt32
  | 0, ws => ws.reverse
  | n + 1, ws => schedule n (nextWord ws :: ws)

structure Digest where
  a : UInt32
  b : UInt32
  c : UInt32
  d : UInt32
  e : UInt32

def initial : Digest := ⟨0x67452301, 0xEFCDAB89, 0x98BADCFE, 0x10325476, 0xC3D2E1F0⟩

def round (h : Digest) (t : Nat) (w : UInt32) : Digest :=
  let (f, k) :=
    if t < 20 then ((h.b &&& h.c) ||| (~~~ h.b &&& h.d), 0x5A827999)
    else if t < 40 then (h.b ^^^ h.c ^^^ h.d, 0x6ED9EBA1)
    else if t < 60 then ((h.b &&& h.c) ||| (h.b &&& h.d) ||| (h.c &&& h.d), 0x8F1BBCDC)
    else (h.b ^^^ h.c ^^^ h.d, 0xCA62C1D6)
  ⟨rotl h.a 5 + f + h.e + k + w, h.a, rotl h.b 30, h.c, h.d⟩

def block (h : Digest) (chunk : List UInt8) : Digest :=
  let ws := schedule 64 ((List.range 16).map (fun i => word ((chunk.drop (4 * i)).take 4))).reverse
  let r := ws.zipIdx.foldl (fun acc w => round acc w.2 w.1) h
  ⟨h.a + r.a, h.b + r.b, h.c + r.c, h.d + r.d, h.e + r.e⟩

def blocks (h : Digest) (message : List UInt8) : Digest :=
  (List.range (message.length / 64)).foldl (fun acc i => block acc ((message.drop (64 * i)).take 64)) h

def sum (message : List UInt8) : List UInt8 :=
  let h := blocks initial (pad message)
  [h.a, h.b, h.c, h.d, h.e].flatMap (fun w => bigEndian 4 w.toNat)

end Jaco.Sha1

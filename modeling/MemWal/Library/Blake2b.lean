import MemWal.Library.Bytes

namespace MemWal.Library.Blake2b

-- BLAKE2b with a 32-byte digest and no key (RFC 7693). `eager` changes no
-- value: it makes the kernel compute a word before going on with it.
def eager (n : Nat) (next : Nat → α) : α :=
  match n with
  | 0 => next 0
  | m+1 => next (m+1)

def word (n : Nat) : Nat := n % 2 ^ 64

def rotateRight (x count : Nat) : Nat := (x >>> count) ||| word (x <<< (64 - count))

def iv : List Nat :=
  [0x6a09e667f3bcc908,0xbb67ae8584caa73b,0x3c6ef372fe94f82b,0xa54ff53a5f1d36f1,
   0x510e527fade682d1,0x9b05688c2b3e6c1f,0x1f83d9abfb41bd6b,0x5be0cd19137e2179]

def sigma : List (List Nat) :=
  [[0,1,2,3,4,5,6,7,8,9,10,11,12,13,14,15],
   [14,10,4,8,9,15,13,6,1,12,0,2,11,7,5,3],
   [11,8,12,0,5,2,15,13,10,14,3,6,7,1,9,4],
   [7,9,3,1,13,12,11,14,2,6,5,10,4,0,15,8],
   [9,0,5,7,2,4,10,15,14,1,11,12,6,8,3,13],
   [2,12,6,10,0,11,8,3,4,13,7,5,15,14,1,9],
   [12,5,1,15,14,13,4,10,0,7,6,3,9,2,8,11],
   [13,11,7,14,12,1,3,9,5,0,15,4,8,6,2,10],
   [6,15,14,9,11,3,0,8,12,2,13,7,1,4,10,5],
   [10,2,8,4,7,6,1,5,15,11,9,14,3,12,13,0]]

def mix (a b c d x y : Nat) (next : Nat → Nat → Nat → Nat → α) : α :=
  eager (word (a + b + x)) fun a =>
  eager (rotateRight (d ^^^ a) 32) fun d =>
  eager (word (c + d)) fun c =>
  eager (rotateRight (b ^^^ c) 24) fun b =>
  eager (word (a + b + y)) fun a =>
  eager (rotateRight (d ^^^ a) 16) fun d =>
  eager (word (c + d)) fun c =>
  eager (rotateRight (b ^^^ c) 63) fun b =>
  next a b c d

-- Four columns, then four diagonals.
def round (message : List Nat) (order : List Nat) : List Nat → List Nat
  | [v0,v1,v2,v3,v4,v5,v6,v7,v8,v9,v10,v11,v12,v13,v14,v15] =>
    let m i := message.getD (order.getD i 0) 0
    mix v0 v4 v8 v12 (m 0) (m 1) fun v0 v4 v8 v12 =>
    mix v1 v5 v9 v13 (m 2) (m 3) fun v1 v5 v9 v13 =>
    mix v2 v6 v10 v14 (m 4) (m 5) fun v2 v6 v10 v14 =>
    mix v3 v7 v11 v15 (m 6) (m 7) fun v3 v7 v11 v15 =>
    mix v0 v5 v10 v15 (m 8) (m 9) fun v0 v5 v10 v15 =>
    mix v1 v6 v11 v12 (m 10) (m 11) fun v1 v6 v11 v12 =>
    mix v2 v7 v8 v13 (m 12) (m 13) fun v2 v7 v8 v13 =>
    mix v3 v4 v9 v14 (m 14) (m 15) fun v3 v4 v9 v14 =>
    [v0,v1,v2,v3,v4,v5,v6,v7,v8,v9,v10,v11,v12,v13,v14,v15]
  | v => v

def eagerList (words : List Nat) (next : List Nat → α) : α :=
  match words with
  | [] => next []
  | head :: tail => eager head fun head => eagerList tail fun tail => next (head :: tail)

-- `counted` is the number of message bytes up to and including this block.
def compress (h : List Nat) (message : List Nat) (counted : Nat) (last : Bool) : List Nat :=
  eagerList message fun message =>
  let v := h ++ iv
  let v := v.set 12 (v.getD 12 0 ^^^ word counted)
  let v := if last then v.set 14 (v.getD 14 0 ^^^ (2 ^ 64 - 1)) else v
  let rounds := sigma ++ sigma.take 2
  eagerList (rounds.foldl (fun v order => round message order v) v) fun v =>
  (h.zip (v.zip (v.drop 8))).map (fun part => part.1 ^^^ part.2.1 ^^^ part.2.2)

def words : Nat → Bytes → List Nat
  | 0,_ => []
  | count+1,bytes => Bytes.readLe (bytes.take 8) :: words count (bytes.drop 8)

def absorb : Nat → List Nat → Nat → Bytes → List Nat
  | 0,h,_,_ => h
  | fuel+1,h,counted,bytes =>
    if bytes.length ≤ 128 then compress h (words 16 bytes) (counted + bytes.length) true
    else absorb fuel (compress h (words 16 (bytes.take 128)) (counted + 128) false)
      (counted + 128) (bytes.drop 128)

def start : List Nat := iv.set 0 (iv.getD 0 0 ^^^ 0x01010020)

def digest (message : Bytes) : Bytes :=
  eagerList (absorb (message.length + 1) start 0 message) fun h =>
  (List.range 4).flatMap (fun i => Bytes.writeLe 8 (h.getD i 0))

theorem eagerList_eq (words : List Nat) (next : List Nat → α) : eagerList words next = next words := by
  induction words generalizing next with
  | nil => rfl
  | cons head tail ih => cases head <;> simp [eagerList,eager,ih]

def hash256 : Hash256 := ⟨digest,by intro message; simp [digest,eagerList_eq]⟩

-- The published vector for "abc".
example : digest [0x61,0x62,0x63] =
    [0xbd,0xdd,0x81,0x3c,0x63,0x42,0x39,0x72,0x31,0x71,0xef,0x3f,0xee,0x98,0x57,0x9b,
     0x94,0x96,0x4e,0x3b,0xb1,0xcb,0x3e,0x42,0x72,0x62,0xc8,0xc0,0x68,0xd5,0x23,0x19] := by
  decide +kernel

end MemWal.Library.Blake2b

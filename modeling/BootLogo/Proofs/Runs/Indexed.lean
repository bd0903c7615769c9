import BootLogo.Proofs.Runs.Meaning
import BootLogo.Proofs.Runs.Shortest
import BootLogo.Proofs.Words
import BootLogo.Runs.Decode

/-!
# Unpacking by places

`decode` takes tokens off what is left of a stream and puts their bytes behind what is written. Here the same
is computed on places: an offset into the stream, a number of bytes written, and a view of the buffer that
is as long as was declared and is changed in place. Whatever such a computation relies on is checked, and is
a `Fault` if it does not hold: that a byte or a stretch of bytes is there, that a number is in its word, a
difference too, that bytes make whole groups and two lists of groups are equally long, and that the loop ends
within the passes that it is given.

* `Indexed.headerAt`, `Indexed.fill`: a header read at a place, and the output of a token written over a
  stretch of the view. `headerAt_eq` and `fill_eq` say that they do what `Header.parse?` and `Token.expand`
  say.
* `Indexed.pass`, `Indexed.loop`, `Indexed.decode`: one token, all tokens, and the whole.
-/

namespace BootLogo.Runs

/-- Why a computation on places cannot go on. -/
inductive Fault where
  /-- The places from `first` up to `last` are not all among `size`. -/
  | outside (first last size : Nat)
  /-- So many bytes do not make whole groups. -/
  | leftOver (width size : Nat)
  /-- Two lists that are gone through side by side are not equally long. -/
  | unequal (left right : Nat)
  | overflow (limit : Nat) (value : Int)
  /-- The loop goes on and no pass is left. -/
  | endless
  deriving DecidableEq

instance : Word.Overflows (Except Fault) where
  overflow limit value := .error (.overflow limit value)

namespace Indexed

/-! ## Accesses -/

/-- The byte at a place. -/
def byteAt (bytes : Bytes) (place : Nat) : Except Fault UInt8 :=
  match bytes[place]? with
  | some byte => .ok byte
  | none => .error (.outside place (place + 1) bytes.length)

/-- Puts a byte at a place. -/
def put (bytes : Bytes) (place : Nat) (value : UInt8) : Except Fault Bytes :=
  if place < bytes.length then .ok (bytes.set place value)
  else .error (.outside place (place + 1) bytes.length)

/-- The bytes from one place up to another, if they are there. -/
def slice? (bytes : Bytes) (first last : Nat) : Option Bytes :=
  if first ≤ last ∧ last ≤ bytes.length then some ((bytes.drop first).take (last - first)) else none

/-- The bytes from one place up to another, which have to be there. -/
def slice (bytes : Bytes) (first last : Nat) : Except Fault Bytes :=
  match slice? bytes first last with
  | some part => .ok part
  | none => .error (.outside first last bytes.length)

/-- The first `count` groups of `width` bytes. -/
def groupsOf (width : Nat) : Nat → Bytes → List Bytes
  | 0, _ => []
  | count + 1, bytes => bytes.take width :: groupsOf width count (bytes.drop width)

/-- All bytes in groups of `width`. -/
def groups (width : Nat) (bytes : Bytes) : Except Fault (List Bytes) :=
  if bytes.length % width = 0 then .ok (groupsOf width (bytes.length / width) bytes)
  else .error (.leftOver width bytes.length)

/-- Two lists side by side. -/
def pairs {α β : Type} (left : List α) (right : List β) : Except Fault (List (α × β)) :=
  if left.length = right.length then .ok (left.zip right)
  else .error (.unequal left.length right.length)

/-! ## Headers -/

/-- The bytes of a header at `offset` behind the first `size`, at most `room` of them: the length, and how
many bytes the header has. The length is a word of 32 bits. -/
def extendAt (limit : Nat) (stream : Bytes) (offset : Nat) :
    Nat → Nat → Nat → Except Fault (Option (Nat × Nat))
  | 0, length, size => return some (length, size)
  | room + 1, length, size => do
    let place ← Word.unsigned limit (offset + size : Nat)
    match stream[place]? with
    | none => return none
    | some byte =>
      let longer ← Word.unsigned wordLimit (length * 128 + byte.toNat % 128 : Nat)
      if byte.toNat.testBit 7 then extendAt limit stream offset room longer (size + 1)
      else return some (longer, size + 1)

/-- The header at `offset`, unless it is cut short. -/
def headerAt (limit : Nat) (stream : Bytes) (offset : Nat) : Except Fault (Option Header) :=
  match stream[offset]? with
  | none => return none
  | some first => do
    let kind := Kind.ofByte first
    let length := first.toNat % kind.topRange
    if first.toNat.testBit 7 then
      let extended ← extendAt limit stream offset 3 length 1
      return extended.map fun (total, size) => ⟨kind, total, size⟩
    else return some ⟨kind, length, 1⟩

/-- How many bytes of the stream follow the header. -/
def payloadSize (limit : Nat) (header : Header) : Except Fault Nat :=
  match header.kind with
  | .literal => return header.length
  | .byte => return 1
  | .word => return 4
  | .alpha => do
    let triples ← Word.unsigned limit (3 * header.length : Nat)
    Word.unsigned limit (1 + triples : Nat)

/-- How many bytes the token writes. -/
def outputSize (limit : Nat) (header : Header) : Except Fault Nat :=
  match header.kind with
  | .literal | .byte => return header.length
  | .word | .alpha => Word.unsigned limit (4 * header.length : Nat)

/-! ## Output -/

/-- Puts four bytes into a pixel. -/
def store (b0 b1 b2 b3 : UInt8) (pixel : Bytes) : Except Fault Bytes := do
  let pixel ← put pixel 0 b0
  let pixel ← put pixel 1 b1
  let pixel ← put pixel 2 b2
  put pixel 3 b3

/-- Puts the byte that is shared and a triple, last one first, into a pixel. -/
def storeTriple (shared : UInt8) : Bytes × Bytes → Except Fault Bytes
  | (pixel, triple) => do
    let b1 ← byteAt triple 0
    let b2 ← byteAt triple 1
    let b3 ← byteAt triple 2
    store shared b3 b2 b1 pixel

/-- The part of the view that the token is for, after its output has been written over it. -/
def fill (kind : Kind) (source target : Bytes) : Except Fault Bytes :=
  match kind with
  | .literal =>
    if source.length = target.length then .ok source
    else .error (.unequal source.length target.length)
  | .byte => do
    let value ← byteAt source 0
    return target.map fun _ => value
  | .word => do
    let b3 ← byteAt source 3
    let b2 ← byteAt source 2
    let b1 ← byteAt source 1
    let b0 ← byteAt source 0
    let filled ← (← groups 4 target).mapM (store b0 b1 b2 b3)
    return filled.flatten
  | .alpha => do
    let shared ← byteAt source 0
    let triples ← groups 3 (← slice source 1 source.length)
    let filled ← (← pairs (← groups 4 target) triples).mapM (storeTriple shared)
    return filled.flatten

/-- Writes the output of a token, `produced` bytes, behind what is written: how many bytes are written then, and
the view. -/
def emit (limit : Nat) (kind : Kind) (source : Bytes) (produced written : Nat) (view : Bytes) :
    Except Fault (Nat × Bytes) := do
  let last ← Word.unsigned limit (written + produced : Nat)
  let target ← slice view written last
  let filled ← fill kind source target
  return (last, view.take written ++ filled ++ view.drop last)

/-! ## Tokens -/

/-- How far a stream has been unpacked: the place of the next token, how many bytes are written, and the
view that they are written to. -/
structure Cursor where
  offset : Nat
  written : Nat
  view : Bytes

/-- Goes over one token. -/
def pass (limit declared : Nat) (stream : Bytes) (cursor : Cursor) :
    Except Fault (Except Error Cursor) := do
  let truncated := Error.truncated cursor.offset cursor.written declared
  match ← headerAt limit stream cursor.offset with
  | none => return .error truncated
  | some header =>
    let produced ← outputSize limit header
    let room ← Word.unsigned limit (declared - cursor.written)
    if room < produced then return .error (.overrun cursor.offset cursor.written declared)
    else
      let payload ← Word.unsigned limit (cursor.offset + header.size : Nat)
      let consumed ← payloadSize limit header
      let offset ← Word.unsigned limit (payload + consumed : Nat)
      match slice? stream payload offset with
      | none => return .error truncated
      | some source =>
        let (written, view) ← emit limit header.kind source produced cursor.written cursor.view
        return .ok ⟨offset, written, view⟩

/-- Goes over tokens until `declared` bytes are written: the number of bytes or the error, and the view. At
most `passes` tokens may be gone over in full. -/
def loop (limit declared : Nat) (stream : Bytes) :
    (passes : Nat) → Cursor → Except Fault (Except Error Nat × Bytes)
  | passes, cursor =>
    if cursor.written < declared then do
      match ← pass limit declared stream cursor with
      | .error error => return (.error error, cursor.view)
      | .ok later =>
        match passes with
        | 0 => .error .endless
        | passes + 1 => loop limit declared stream passes later
    else return (.ok declared, cursor.view)

/-- Unpacks `stream` into the front of `buffer`: the number of bytes or the error, and the whole buffer. There
are as many passes as the stream has bytes behind its front. -/
def decode (limit : Nat) (stream buffer : Bytes) : Except Fault (Except Error Nat × Bytes) :=
  match declaredLength stream with
  | .error error => return (.error error, buffer)
  | .ok declared =>
    if buffer.length < declared then return (.error (.outputTooSmall declared buffer.length), buffer)
    else do
      let target ← Word.unsigned limit declared
      let view ← slice buffer 0 target
      let (result, view) ← loop limit target stream (stream.length - frontSize) ⟨frontSize, 0, view⟩
      return (result, view ++ buffer.drop target)

/-! ## Nothing is missing -/

variable {α β : Type} {limit : Nat} {stream : Bytes}

theorem mapM_eq_ok {list : List α} {f : α → Except Fault β} {g : α → β}
    (h : ∀ x ∈ list, f x = .ok (g x)) : list.mapM f = .ok (list.map g) := by
  induction list with
  | nil => rfl
  | cons x list ih =>
    rw [List.mapM_cons, Word.bind_eq (h x List.mem_cons_self),
      Word.bind_eq (ih fun y hy => h y (List.mem_cons_of_mem x hy))]
    rfl

/-! ### Headers -/

theorem drop_of_getElem? {bytes : Bytes} {place : Nat} {byte : UInt8} (h : bytes[place]? = some byte) :
    bytes.drop place = byte :: bytes.drop (place + 1) := by
  rw [List.drop_eq_getElem?_toList_append, h]
  rfl

theorem drop_of_getElem?_eq_none {bytes : Bytes} {place : Nat} (h : bytes[place]? = none) :
    bytes.drop place = [] :=
  List.drop_eq_nil_of_le (List.getElem?_eq_none_iff.1 h)

theorem extendAt_eq (hlimit : stream.length < limit) {offset room length size : Nat}
    (hplace : offset + size ≤ stream.length) (hlength : (length + 1) * 128 ^ room ≤ wordLimit) :
    extendAt limit stream offset room length size =
      .ok ((Header.extend? room length (stream.drop (offset + size))).map fun (total, taken) =>
        (total, size + taken)) := by
  induction room generalizing length size with
  | zero => rfl
  | succ room ih =>
    rw [extendAt, Word.bind_eq (Word.unsigned_eq (by omega))]
    cases hbyte : stream[offset + size]? with
    | none =>
      rw [drop_of_getElem?_eq_none hbyte]
      rfl
    | some byte =>
      have hinside := (List.getElem?_eq_some_iff.1 hbyte).1
      -- a further byte makes the length at most 128 times as long
      have hlonger : (length * 128 + byte.toNat % 128 + 1) * 128 ^ room ≤ wordLimit :=
        calc (length * 128 + byte.toNat % 128 + 1) * 128 ^ room
            ≤ (length + 1) * 128 * 128 ^ room := Nat.mul_le_mul_right _ (by omega)
          _ = (length + 1) * 128 ^ (room + 1) := by rw [Nat.pow_succ']; ring
          _ ≤ wordLimit := hlength
      have hfits : length * 128 + byte.toNat % 128 < wordLimit :=
        (Nat.le_mul_of_pos_right _ (Nat.pow_pos (by decide))).trans hlonger
      rw [drop_of_getElem? hbyte, Header.extend?]
      dsimp only
      rw [Word.bind_eq (Word.unsigned_eq hfits)]
      split
      · rw [@ih _ (size + 1) (by omega) hlonger, Option.map_map]
        congr 2
        funext found
        exact congrArg (Prod.mk found.1) (Nat.add_right_comm size 1 found.2)
      · rfl

theorem headerAt_eq (hlimit : stream.length < limit) (offset : Nat) :
    headerAt limit stream offset = .ok (Header.parse? (stream.drop offset)) := by
  unfold headerAt
  cases hfirst : stream[offset]? with
  | none =>
    rw [drop_of_getElem?_eq_none hfirst]
    rfl
  | some first =>
    have hinside := (List.getElem?_eq_some_iff.1 hfirst).1
    have htop : first.toNat % (Kind.ofByte first).topRange < 64 := by
      cases Kind.ofByte first <;> simp only [Kind.topRange] <;> omega
    rw [drop_of_getElem? hfirst, Header.parse?]
    dsimp only
    split
    · rw [Word.bind_eq (extendAt_eq hlimit hinside (by unfold wordLimit; omega)), Option.map_map]
      congr 2
      funext found
      exact congrArg (Header.mk _ _) (Nat.add_comm 1 found.2)
    · rfl

/-! ### Sizes -/

theorem sizes_lt {bytes : Bytes} {header : Header} (h : Header.parse? bytes = some header) :
    header.payloadSize < 2 ^ 27 ∧ header.outputSize < 2 ^ 27 := by
  obtain ⟨spelled, rest, -, hspelled⟩ := parse?_eq_some_iff.1 h
  have hlength := hspelled.length_le_maxLength
  obtain ⟨kind, length, size⟩ := header
  cases kind <;>
    simp only [Kind.maxLength, Kind.topRange, Header.payloadSize, Header.outputSize] at hlength ⊢ <;>
    omega

theorem payloadSize_eq {header : Header} (h : header.payloadSize < limit) :
    payloadSize limit header = .ok header.payloadSize := by
  obtain ⟨kind, length, size⟩ := header
  cases kind with
  | literal | byte | word => rfl
  | alpha =>
    simp only [Header.payloadSize] at h
    simp only [payloadSize]
    rw [Word.bind_eq (Word.unsigned_eq (by omega))]
    exact Word.unsigned_eq h

theorem outputSize_eq {header : Header} (h : header.outputSize < limit) :
    outputSize limit header = .ok header.outputSize := by
  obtain ⟨kind, length, size⟩ := header
  cases kind with
  | literal | byte => rfl
  | word | alpha => exact Word.unsigned_eq h

/-! ### Output -/

theorem slice?_eq_split? {bytes : Bytes} {place : Nat} (h : place ≤ bytes.length) (count : Nat) :
    (slice? bytes place (place + count)).map (·, bytes.drop (place + count)) =
      Bytes.split? (bytes.drop place) count := by
  have hlength : ((bytes.drop place).take count).length = count ↔ place + count ≤ bytes.length := by
    rw [List.length_take, List.length_drop]
    omega
  simp only [slice?, Bytes.split?, hlength, Nat.add_sub_cancel_left, List.drop_drop,
    Nat.le_add_right, true_and]
  split <;> rfl

theorem length_of_slice? {bytes part : Bytes} {place count : Nat}
    (h : slice? bytes place (place + count) = some part) : part.length = count := by
  unfold slice? at h
  split at h
  · rename_i hinside
    cases h
    rw [List.length_take, List.length_drop]
    omega
  · cases h

theorem slice_eq {bytes : Bytes} {first last : Nat} (hfirst : first ≤ last) (hlast : last ≤ bytes.length) :
    slice bytes first last = .ok ((bytes.drop first).take (last - first)) := by
  rw [slice, slice?, if_pos ⟨hfirst, hlast⟩]

theorem groupsOf_flatMap {width : Nat} {f : α → Bytes} (hwidth : ∀ x, (f x).length = width)
    (list : List α) : groupsOf width list.length (list.flatMap f) = list.map f := by
  induction list with
  | nil => rfl
  | cons x list ih =>
    rw [List.length_cons, groupsOf, List.flatMap_cons, List.take_left' (hwidth x),
      List.drop_left' (hwidth x), ih, List.map_cons]

theorem groupsOf_whole {width count : Nat} {bytes : Bytes} (h : bytes.length = count * width) :
    (groupsOf width count bytes).length = count ∧
      ∀ group ∈ groupsOf width count bytes, group.length = width := by
  induction count generalizing bytes with
  | zero => exact ⟨rfl, fun group hgroup => absurd hgroup List.not_mem_nil⟩
  | succ count ih =>
    rw [Nat.succ_mul] at h
    obtain ⟨hcount, hgroups⟩ := @ih (bytes.drop width) (by rw [List.length_drop]; omega)
    refine ⟨congrArg Nat.succ hcount, fun group hgroup => ?_⟩
    obtain rfl | hgroup := List.mem_cons.1 hgroup
    · rw [List.length_take]
      omega
    · exact hgroups group hgroup

theorem groups_eq {width count : Nat} {bytes : Bytes} (hwidth : 0 < width)
    (h : bytes.length = count * width) : groups width bytes = .ok (groupsOf width count bytes) := by
  rw [groups, h, if_pos (Nat.mul_mod_left count width), Nat.mul_div_cancel count hwidth]

theorem groups_flatMap {width : Nat} {f : α → Bytes} (hpos : 0 < width)
    (hwidth : ∀ x, (f x).length = width) (list : List α) :
    groups width (list.flatMap f) = .ok (list.map f) := by
  have hlength : (list.flatMap f).length = list.length * width := by
    simp only [List.length_flatMap, hwidth, List.map_const', List.sum_replicate_nat]
  rw [groups_eq hpos hlength, groupsOf_flatMap hwidth]

theorem pairs_eq {left : List α} {right : List β} (h : left.length = right.length) :
    pairs left right = .ok (left.zip right) :=
  if_pos h

theorem store_eq (b0 b1 b2 b3 : UInt8) {pixel : Bytes} (h : pixel.length = 4) :
    store b0 b1 b2 b3 pixel = .ok [b0, b1, b2, b3] := by
  match pixel, h with
  | [_, _, _, _], _ => rfl

theorem fill_word {target : Bytes} {count : Nat} (b0 b1 b2 b3 : UInt8)
    (htarget : target.length = count * 4) :
    fill .word [b0, b1, b2, b3] target = .ok (List.replicate count [b0, b1, b2, b3]).flatten := by
  obtain ⟨hcount, hwidths⟩ := groupsOf_whole htarget
  have hstored := mapM_eq_ok fun pixel hpixel => store_eq b0 b1 b2 b3 (hwidths pixel hpixel)
  rw [List.map_const', hcount] at hstored
  show (groups 4 target >>= fun pixels =>
    pixels.mapM (store b0 b1 b2 b3) >>= fun filled => .ok filled.flatten) = _
  rw [Word.bind_eq (groups_eq (by decide) htarget), Word.bind_eq hstored]

theorem mapM_storeTriple (shared : UInt8) {pixels : List Bytes}
    {triples : List (UInt8 × UInt8 × UInt8)} (hcount : pixels.length = triples.length)
    (hwidths : ∀ pixel ∈ pixels, pixel.length = 4) :
    (pixels.zip (triples.map fun (b1, b2, b3) => [b1, b2, b3])).mapM (storeTriple shared) =
      .ok (triples.map fun (b1, b2, b3) => [shared, b3, b2, b1]) := by
  induction triples generalizing pixels with
  | nil =>
    rw [List.map_nil, List.zip_nil_right]
    rfl
  | cons triple triples ih =>
    match pixels, hcount with
    | pixel :: pixels, hcount =>
      obtain ⟨b1, b2, b3⟩ := triple
      have hpixel : storeTriple shared (pixel, [b1, b2, b3]) = .ok [shared, b3, b2, b1] :=
        store_eq shared b3 b2 b1 (hwidths pixel List.mem_cons_self)
      have hrest := ih (Nat.succ.inj hcount) fun other hother =>
        hwidths other (List.mem_cons_of_mem pixel hother)
      rw [List.map_cons, List.zip_cons_cons, List.mapM_cons, Word.bind_eq hpixel, Word.bind_eq hrest]
      rfl

theorem fill_alpha {target : Bytes} (shared : UInt8) (triples : List (UInt8 × UInt8 × UInt8))
    (htarget : target.length = triples.length * 4) :
    fill .alpha (shared :: triples.flatMap fun (b1, b2, b3) => [b1, b2, b3]) target =
      .ok (triples.flatMap fun (b1, b2, b3) => [shared, b3, b2, b1]) := by
  obtain ⟨hcount, hwidths⟩ := groupsOf_whole htarget
  have htriples := @groups_flatMap _ 3 (fun (b1, b2, b3) => [b1, b2, b3]) (by decide) (fun _ => rfl) triples
  have hstored := mapM_storeTriple shared hcount hwidths
  generalize (triples.flatMap fun (b1, b2, b3) => [b1, b2, b3]) = rest at htriples ⊢
  have hslice : slice (shared :: rest) 1 (shared :: rest).length = .ok rest := by
    rw [slice_eq (by simp) (Nat.le_refl _)]
    exact congrArg Except.ok List.take_length
  show (slice (shared :: rest) 1 (shared :: rest).length >>= fun rest => groups 3 rest >>= fun triples =>
    groups 4 target >>= fun pixels => pairs pixels triples >>= fun both =>
      both.mapM (storeTriple shared) >>= fun filled => .ok filled.flatten) = _
  rw [Word.bind_eq hslice, Word.bind_eq htriples, Word.bind_eq (groups_eq (by decide) htarget),
    Word.bind_eq (pairs_eq (hcount.trans (List.length_map _).symm)), Word.bind_eq hstored]
  exact congrArg Except.ok List.flatMap_def.symm

/-- Every token fills the bytes that it is for with what it stands for. -/
theorem fill_eq {header : Header} {source target : Bytes} (hsource : source.length = header.payloadSize)
    (htarget : target.length = header.outputSize) :
    fill header.kind source target = .ok (Token.ofPayload header source).expand := by
  obtain ⟨kind, length, size⟩ := header
  cases kind with
  | literal => exact if_pos (hsource.trans htarget.symm)
  | byte =>
    obtain ⟨value, rfl⟩ := List.length_eq_one_iff.1 hsource
    have hfilled : (target.map fun _ => value) = List.replicate length value := by
      rw [List.map_const', htarget]
      rfl
    exact congrArg Except.ok hfilled
  | word =>
    match source, hsource with
    | [b0, b1, b2, b3], _ => exact fill_word b0 b1 b2 b3 (htarget.trans (Nat.mul_comm 4 length))
  | alpha =>
    obtain ⟨shared, triples, rfl, rfl⟩ := exists_shared_triples hsource
    rw [fill_alpha shared triples (htarget.trans (Nat.mul_comm 4 triples.length))]
    simp [Token.ofPayload, Token.expand, triples_flatMap]

theorem emit_eq {header : Header} {source front view : Bytes}
    (hsource : source.length = header.payloadSize)
    (hroom : front.length + header.outputSize ≤ view.length) (hview : view.length < limit) :
    emit limit header.kind source header.outputSize front.length (view.overwrite front) =
      .ok (front.length + header.outputSize,
        view.overwrite (front ++ (Token.ofPayload header source).expand)) := by
  have houtput := length_expand_ofPayload hsource
  have hlength : (view.overwrite front).length = view.length := Bytes.length_overwrite (by omega)
  have htarget : (((view.overwrite front).drop front.length).take
      (front.length + header.outputSize - front.length)).length = header.outputSize := by
    rw [List.length_take, List.length_drop]
    omega
  unfold emit
  rw [Word.bind_eq (Word.unsigned_eq (by omega)), Word.bind_eq (slice_eq (by omega) (by omega)),
    Word.bind_eq (fill_eq hsource htarget), ← houtput]
  refine congrArg (fun bytes => Except.ok (_, bytes)) ?_
  rw [Bytes.overwrite, Bytes.overwrite, List.take_left, ← List.drop_drop, List.drop_left, List.drop_drop,
    List.length_append]

end Indexed

end BootLogo.Runs

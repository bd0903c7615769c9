import BootLogo.Proofs.Bitmap.FetchOrder

/-!
# Interpreting a bitmap again

Interpreting turns the bytes of packed pixels round where they lie, and turning them round again gives the
bytes back. The place of the pixels is a field of the header, and nothing keeps it from pointing into the
header. So a second look finds what the first one found only if the first one left alone what it read.

* `getElem?_fixed`: what becomes of each byte; `fixed_fixed`: twice the same is nothing.
* `SameAccount`: two containers say the same about their pixels. A container behind whose account the pixels
  lie keeps it (`SameAccount.fixed`).
* `interpret_undone_iff`: the second call undoes the first exactly if the account was kept.
-/

namespace BootLogo

/-- Several pixels share a byte. -/
def PixelFormat.IsPacked (format : PixelFormat) : Prop := format.bitsPerPixel < 8

namespace Bitmap

variable {bytes other : Bytes} {info again : Info} {image : Image} {format : PixelFormat}

/-! ## Bytes -/

theorem fixByte_of_not_packed (h : ¬ format.IsPacked) (b : UInt8) : BitOrder.fixByte format b = b := by
  cases format with
  | clut4 => exact absurd (by decide : 4 < 8) h
  | clut1 => exact absurd (by decide : 1 < 8) h
  | _ => rfl

theorem getElem?_fixed (h : info.stop ≤ bytes.length) (i : Nat) :
    (info.fixed bytes)[i]? =
      if info.start ≤ i ∧ i < info.stop then bytes[i]?.map (BitOrder.fixByte info.format)
      else bytes[i]? := by
  have hle : info.start ≤ info.stop := Nat.le_add_right _ _
  have hfront : (bytes.take info.start).length = info.start := by
    rw [List.length_take]
    omega
  have hregion : (BitOrder.fix info.format (slice bytes info.start info.stop)).length =
      info.stop - info.start := by
    rw [BitOrder.length_fix, length_slice h]
  rw [Info.fixed, List.append_assoc]
  by_cases hbefore : i < info.start
  · rw [List.getElem?_append_left (by omega), List.getElem?_take_of_lt hbefore, if_neg (by omega)]
  rw [List.getElem?_append_right (by omega), hfront]
  by_cases hinside : i < info.stop
  · rw [List.getElem?_append_left (by omega), if_pos (by omega), BitOrder.fix, List.getElem?_map, slice,
      List.getElem?_take_of_lt (by omega), List.getElem?_drop, Nat.add_sub_cancel' (by omega)]
  · rw [List.getElem?_append_right (by omega), hregion, if_neg (by omega), List.getElem?_drop]
    congr 1
    omega

theorem byte_fixed (h : info.stop ≤ bytes.length) (i : Nat) :
    (info.fixed bytes).byte i =
      if info.start ≤ i ∧ i < info.stop then (BitOrder.fixByte info.format (bytes.getD i 0)).toNat
      else bytes.byte i := by
  rw [Bytes.byte, List.getD_eq_getElem?_getD, getElem?_fixed h]
  split
  · rename_i hinside
    rw [List.getD_eq_getElem?_getD, List.getElem?_eq_getElem (by omega)]
    rfl
  · rw [← List.getD_eq_getElem?_getD]
    rfl

theorem inside_of_byte_ne (h : info.stop ≤ bytes.length) {i : Nat}
    (hne : (info.fixed bytes).byte i ≠ bytes.byte i) : info.start ≤ i ∧ i < info.stop := by
  by_contra hoff
  rw [byte_fixed h, if_neg hoff] at hne
  exact hne rfl

theorem fixed_of_not_packed (h : info.stop ≤ bytes.length) (hformat : ¬ info.format.IsPacked) :
    info.fixed bytes = bytes := by
  have hid : BitOrder.fixByte info.format = id := funext (fixByte_of_not_packed hformat)
  refine List.ext_getElem? fun i => ?_
  rw [getElem?_fixed h, hid, Option.map_id_fun, id_eq, ite_self]

theorem fixed_fixed (h : inspect bytes = .ok info) : info.fixed (info.fixed bytes) = bytes := by
  obtain ⟨-, -, -, hstop⟩ := inspect_eq_ok h
  have htwice : BitOrder.fixByte info.format ∘ BitOrder.fixByte info.format = id :=
    funext (BitOrder.fixByte_fixByte info.format)
  refine List.ext_getElem? fun i => ?_
  rw [getElem?_fixed (length_fixed h ▸ hstop), getElem?_fixed hstop]
  split
  · rw [Option.map_map, htwice, Option.map_id_fun, id_eq]
  · rfl

theorem fixed_congr (hstart : again.start = info.start) (hformat : again.format = info.format)
    (hlayout : again.layout = info.layout) : again.fixed bytes = info.fixed bytes := by
  rw [Info.fixed, Info.fixed, Info.stop, Info.stop, hstart, hformat, hlayout]

/-! ## The account that a header gives of its pixels -/

/-- Behind these bytes nothing is read to find the pixels. -/
def Header.accountSize : Nat := 34

/-- The two containers say the same about their pixels: where they are, and how they are to be read. -/
structure SameAccount (bytes other : Bytes) : Prop where
  signed : isSigned other = isSigned bytes
  start : (Header.fields other).pixelOffset = (Header.fields bytes).pixelOffset
  width : (Header.fields other).width = (Header.fields bytes).width
  height : (Header.fields other).height = (Header.fields bytes).height
  depth : (Header.fields other).bitsPerPixel = (Header.fields bytes).bitsPerPixel
  compression : (Header.fields other).compression = (Header.fields bytes).compression

theorem SameAccount.of_take
    (h : other.take Header.accountSize = bytes.take Header.accountSize) : SameAccount bytes other := by
  have hsigned : isSigned other = isSigned bytes := by
    have htwo := congrArg (List.take 2) h
    rw [List.take_take, List.take_take] at htwo
    rw [isSigned, isSigned, show other.take 2 = bytes.take 2 from htwo]
  have hword {offset : Nat} (hoffset : offset + 4 ≤ Header.accountSize) :
      other.word offset = bytes.word offset := Bytes.word_congr h hoffset
  exact ⟨hsigned, hword (by decide), congrArg Bytes.signed (hword (by decide)),
    congrArg Bytes.signed (hword (by decide)), Bytes.half_congr h (by decide), hword (by decide)⟩

theorem take_fixed (h : info.stop ≤ bytes.length) {count : Nat} (hcount : count ≤ info.start) :
    (info.fixed bytes).take count = bytes.take count := by
  refine List.ext_getElem? fun i => ?_
  by_cases hi : i < count
  · rw [List.getElem?_take_of_lt hi, List.getElem?_take_of_lt hi, getElem?_fixed h, if_neg (by omega)]
  · rw [List.getElem?_take_eq_none (Nat.not_lt.1 hi), List.getElem?_take_eq_none (Nat.not_lt.1 hi)]

theorem slice_fixed (h : info.stop ≤ bytes.length) {first last : Nat} (hlast : last ≤ info.start) :
    slice (info.fixed bytes) first last = slice bytes first last := by
  rw [slice, slice, ← List.drop_take, ← List.drop_take, take_fixed h hlast]

theorem pixelFormat_of_packed {header : Header} (h : header.pixelFormat = .ok format)
    (hpacked : format.IsPacked) :
    header.compression = uncompressed ∧ header.bitsPerPixel = format.bitsPerPixel := by
  have hfound := pixelFormat_eq_ok_iff.1 h
  unfold Header.pixelFormat? at hfound
  split at hfound
  · rename_i huncompressed
    refine ⟨huncompressed, ?_⟩
    split at hfound <;> cases hfound <;> assumption
  · split at hfound <;> cases hfound <;> exact absurd hpacked (by unfold PixelFormat.IsPacked; decide)

theorem pixelFormat?_congr {header other : Header} (hbits : other.bitsPerPixel = header.bitsPerPixel)
    (hheader : header.compression = uncompressed) (hother : other.compression = uncompressed) :
    other.pixelFormat? = header.pixelFormat? := by
  rw [Header.pixelFormat?, Header.pixelFormat?, if_pos hheader, if_pos hother, hbits]

/-- A container with the same account and as many bytes passes the check with the same result. -/
theorem SameAccount.inspect (h : SameAccount bytes other) (hlength : other.length = bytes.length)
    (hinfo : Bitmap.inspect bytes = .ok info) (hpacked : info.format.IsPacked) :
    Bitmap.inspect other = .ok ⟨.fields other, info.format, info.layout⟩ := by
  obtain ⟨hparse, hformat, hlayout, hstop⟩ := inspect_eq_ok_iff.1 hinfo
  obtain ⟨hsigned, hplain, -, hheader⟩ := parse_eq_ok_iff.1 hparse
  obtain ⟨hcompression, -⟩ := pixelFormat_of_packed hformat hpacked
  have hother : (Header.fields other).compression = uncompressed := by
    rw [h.compression, ← hheader, hcompression]
  refine inspect_eq_ok_iff.2 ⟨parse_eq_ok_iff.2 ⟨?_, ?_, fun hmasked => ?_, rfl⟩, ?_, ?_, ?_⟩
  · rw [h.signed, hsigned]
  · rwa [hlength]
  · exact absurd (hother.symm.trans hmasked) (by decide)
  · have hsame := pixelFormat?_congr (h.depth.trans (hheader ▸ rfl)) hcompression hother
    exact pixelFormat_eq_ok_iff.2 (hsame.trans (pixelFormat_eq_ok_iff.1 hformat))
  · show Layout.ofSize info.format (Header.fields other).width (Header.fields other).height = _
    rw [h.width, h.height, ← hheader, hlayout]
  · show (Header.fields other).pixelOffset + info.layout.region ≤ other.length
    rw [h.start, hlength, ← hheader]
    exact hstop

theorem fixByte_small {b : UInt8} (h : b.toNat < 16) (hfixed : (BitOrder.fixByte format b).toNat < 16) :
    BitOrder.fixByte format b = b := by
  obtain ⟨⟨⟨n, hn⟩⟩⟩ := b
  revert n
  cases format <;> decide +kernel

theorem start_eq_of_restored (hinfo : inspect bytes = .ok info)
    (hagain : inspect (info.fixed bytes) = .ok again)
    (hrestored : again.fixed (info.fixed bytes) = bytes) : again.start = info.start := by
  obtain ⟨hparse, -, -, hstop⟩ := inspect_eq_ok_iff.1 hinfo
  obtain ⟨hparseAgain, -, -, hstopAgain⟩ := inspect_eq_ok_iff.1 hagain
  obtain ⟨-, hplain, -, hheader⟩ := parse_eq_ok_iff.1 hparse
  obtain ⟨-, -, -, hheaderAgain⟩ := parse_eq_ok_iff.1 hparseAgain
  have hstart : info.start = bytes.word 10 := congrArg Header.pixelOffset hheader
  have hstartAgain : again.start = (info.fixed bytes).word 10 :=
    congrArg Header.pixelOffset hheaderAgain
  by_contra hne
  -- some byte of the field was turned round, and turned back
  obtain ⟨place, hplace, hturned⟩ :
      ∃ place, (10 ≤ place ∧ place < 14) ∧ (info.fixed bytes).byte place ≠ bytes.byte place := by
    by_contra hnone
    have hsame {place : Nat} (hplace : 10 ≤ place ∧ place < 14) :
        (info.fixed bytes).byte place = bytes.byte place := by
      by_contra hbyte
      exact hnone ⟨place, hplace, hbyte⟩
    apply hne
    rw [hstart, hstartAgain, Bytes.word, Bytes.word, Bytes.half, Bytes.half, Bytes.half, Bytes.half,
      hsame (by decide), hsame (by decide), hsame (by decide), hsame (by decide)]
  have hback : (again.fixed (info.fixed bytes)).byte place ≠ (info.fixed bytes).byte place := by
    rw [hrestored]
    exact hturned.symm
  have hinside := inside_of_byte_ne hstop hturned
  obtain ⟨hsecond, -⟩ := inside_of_byte_ne hstopAgain hback
  -- so both offsets are small, and all but the lowest byte of the field is zero
  simp only [Bytes.word, Bytes.half, Nat.reduceAdd] at hstart hstartAgain
  have hlowest : place = 10 := by
    obtain rfl | rfl | rfl | rfl : place = 10 ∨ place = 11 ∨ place = 12 ∨ place = 13 := by omega
    all_goals omega
  subst hlowest
  have hfixed : (info.fixed bytes).byte 10 = (BitOrder.fixByte info.format (bytes.getD 10 0)).toNat := by
    rw [byte_fixed hstop, if_pos hinside]
  have hsmall : BitOrder.fixByte info.format (bytes.getD 10 0) = bytes.getD 10 0 := by
    apply fixByte_small
    · show bytes.byte 10 < 16
      omega
    · omega
  rw [hfixed, hsmall] at hturned
  exact hturned rfl

/-! ## Two calls -/

theorem bytes_interpret (h : inspect bytes = .ok info) : (interpret bytes).bytes = info.fixed bytes := by
  unfold interpret
  rw [h]

theorem SameAccount.fixed (hinfo : Bitmap.inspect bytes = .ok info)
    (hbehind : info.format.IsPacked → Header.accountSize ≤ info.start) :
    SameAccount bytes (info.fixed bytes) := by
  obtain ⟨-, -, -, hstop⟩ := inspect_eq_ok hinfo
  by_cases hpacked : info.format.IsPacked
  · exact .of_take (take_fixed hstop (hbehind hpacked))
  · rw [fixed_of_not_packed hstop hpacked]
    exact ⟨rfl, rfl, rfl, rfl, rfl, rfl⟩

/-- With the same account the second call finds the same pixels, and turns them back. -/
theorem SameAccount.restored (h : SameAccount bytes (info.fixed bytes))
    (hinfo : Bitmap.inspect bytes = .ok info) :
    ∃ again, Bitmap.inspect (info.fixed bytes) = .ok again ∧
      again.header = .fields (info.fixed bytes) ∧ again.format = info.format ∧
      again.layout = info.layout ∧ again.fixed (info.fixed bytes) = bytes := by
  obtain ⟨hparse, -, -, hstop⟩ := inspect_eq_ok hinfo
  obtain ⟨-, -, -, hheader⟩ := parse_eq_ok_iff.1 hparse
  by_cases hpacked : info.format.IsPacked
  · let again : Info := ⟨.fields (info.fixed bytes), info.format, info.layout⟩
    have hstart : again.start = info.start := h.start.trans (congrArg Header.pixelOffset hheader.symm)
    refine ⟨again, h.inspect (length_fixed hinfo) hinfo hpacked, rfl, rfl, rfl, ?_⟩
    rw [fixed_congr hstart rfl rfl, fixed_fixed hinfo]
  · have hsame := fixed_of_not_packed hstop hpacked
    rw [hsame]
    exact ⟨info, hinfo, hheader, rfl, rfl, hsame⟩

theorem sameAccount_of_restored (hinfo : inspect bytes = .ok info)
    (hagain : inspect (info.fixed bytes) = .ok again) (hformat : again.format = info.format)
    (hlayout : again.layout = info.layout) (hrestored : again.fixed (info.fixed bytes) = bytes) :
    SameAccount bytes (info.fixed bytes) := by
  have hstart := start_eq_of_restored hinfo hagain hrestored
  obtain ⟨hparse, hpixels, hlays, hstop⟩ := inspect_eq_ok hinfo
  obtain ⟨hparseAgain, hpixelsAgain, hlaysAgain, -⟩ := inspect_eq_ok hagain
  obtain ⟨hsigned, -, -, hheader⟩ := parse_eq_ok_iff.1 hparse
  obtain ⟨hsignedAgain, -, -, hheaderAgain⟩ := parse_eq_ok_iff.1 hparseAgain
  by_cases hpacked : info.format.IsPacked
  · rw [hformat] at hpixelsAgain hlaysAgain
    rw [hlayout] at hlaysAgain
    obtain ⟨hwidth, hheight⟩ := hlays.size_unique hlaysAgain
    obtain ⟨hcompression, hdepth⟩ := pixelFormat_of_packed hpixels hpacked
    obtain ⟨hcompressionAgain, hdepthAgain⟩ := pixelFormat_of_packed hpixelsAgain hpacked
    have hdepths := hdepthAgain.trans hdepth.symm
    have hcompressions := hcompressionAgain.trans hcompression.symm
    simp only [Info.start, hheader, hheaderAgain] at hstart hwidth hheight hdepths hcompressions
    exact ⟨hsignedAgain.trans hsigned.symm, hstart, hwidth, hheight, hdepths, hcompressions⟩
  · rw [fixed_of_not_packed hstop hpacked]
    exact ⟨rfl, rfl, rfl, rfl, rfl, rfl⟩

theorem palette_restored (hinfo : inspect bytes = .ok info)
    (hbehind : info.format.IsPacked → Header.accountSize ≤ info.start)
    (hheader : again.header = .fields (info.fixed bytes)) (hstart : again.start = info.start)
    (hformat : again.format = info.format) : again.palette bytes = info.palette (info.fixed bytes) := by
  obtain ⟨hparse, -, -, hstop⟩ := inspect_eq_ok hinfo
  obtain ⟨-, -, -, hinfoHeader⟩ := parse_eq_ok_iff.1 hparse
  have hsize : again.header.headerSize = info.header.headerSize := by
    rw [hheader, hinfoHeader]
    by_cases hpacked : info.format.IsPacked
    · have htake := take_fixed hstop (hbehind hpacked)
      exact Bytes.word_congr htake (by decide)
    · rw [fixed_of_not_packed hstop hpacked]
  rw [Info.palette, Info.palette, hsize, hstart, hformat, slice_fixed hstop (Nat.min_le_left _ _)]

/-- **A second call undoes the first exactly if the first left the account of the pixels as it was.** It
does if no byte is turned round, or if the pixels lie behind what is read to find them. -/
theorem interpret_undone_iff (h : (interpret bytes).result = .ok (info, image)) :
    let once := (interpret bytes).bytes
    let twice := interpret once
    ((∃ again picture, twice.result = .ok (again, picture) ∧ again.format = info.format ∧
        again.layout = info.layout ∧ twice.bytes = bytes) ↔ SameAccount bytes once) ∧
    ((info.format.IsPacked → Header.accountSize ≤ info.start) →
      ∃ again picture, twice.result = .ok (again, picture) ∧ again.format = info.format ∧
        again.layout = info.layout ∧ picture.palette = image.palette ∧ twice.bytes = bytes) := by
  intro once twice
  obtain ⟨hinfo, rfl⟩ := interpret_eq_ok.1 h
  have honce : once = info.fixed bytes := bytes_interpret hinfo
  simp only [twice, honce]
  refine ⟨⟨?_, fun haccount => ?_⟩, fun hbehind => ?_⟩
  · rintro ⟨again, picture, hresult, hformat, hlayout, hrestored⟩
    obtain ⟨hagain, -⟩ := interpret_eq_ok.1 hresult
    rw [bytes_interpret hagain] at hrestored
    exact sameAccount_of_restored hinfo hagain hformat hlayout hrestored
  · obtain ⟨again, hagain, -, hformat, hlayout, hrestored⟩ := haccount.restored hinfo
    refine ⟨again, _, interpret_eq_ok.2 ⟨hagain, rfl⟩, hformat, hlayout, ?_⟩
    rw [bytes_interpret hagain, hrestored]
  · obtain ⟨again, hagain, hheader, hformat, hlayout, hrestored⟩ :=
      (SameAccount.fixed hinfo hbehind).restored hinfo
    have hstart := start_eq_of_restored hinfo hagain hrestored
    refine ⟨again, _, interpret_eq_ok.2 ⟨hagain, rfl⟩, hformat, hlayout, ?_, ?_⟩
    · rw [hrestored]
      exact palette_restored hinfo hbehind hheader hstart hformat
    · rw [bytes_interpret hagain, hrestored]

theorem interpret_undone_checkered :
    let info := checkeredInfo checkeredUp 0 2
    (interpret checkeredUp).result = .ok (info, info.image (info.fixed checkeredUp)) ∧
    (interpret checkeredUp).bytes ≠ checkeredUp ∧
    SameAccount checkeredUp (interpret checkeredUp).bytes ∧
    (interpret (interpret checkeredUp).bytes).bytes = checkeredUp := by
  intro info
  have hinterpret : (interpret checkeredUp).result =
      .ok (info, info.image (info.fixed checkeredUp)) := interpret_eq_ok.2 ⟨rfl, rfl⟩
  obtain ⟨hiff, hbehind⟩ := interpret_undone_iff hinterpret
  obtain ⟨again, picture, hresult, hformat, hlayout, -, hrestored⟩ := hbehind fun _ => by decide
  exact ⟨hinterpret, by decide, hiff.1 ⟨again, picture, hresult, hformat, hlayout, hrestored⟩, hrestored⟩

/-- Eight pixels of one bit, which are said to lie at the very start. -/
def selfCovering : Bytes :=
  [0x42, 0x4D] ++ Bytes.ofWord 54 ++ Bytes.ofWord 0 ++ Bytes.ofWord 0 ++ Bytes.ofWord 40 ++
    Bytes.ofWord 8 ++ Bytes.ofWord 1 ++ [1, 0, 1, 0] ++ List.replicate 24 0

/-- The first call turns the signature round, and the second does not find it. -/
theorem selfCovering_lost :
    (∃ info image, (interpret selfCovering).result = .ok (info, image)) ∧
      (interpret (interpret selfCovering).bytes).result = .error .badSignature :=
  ⟨⟨_, _, interpret_eq_ok.2 ⟨rfl, rfl⟩⟩, rfl⟩

end Bitmap

end BootLogo

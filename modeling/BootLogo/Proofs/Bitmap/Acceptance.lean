import BootLogo.Proofs.Bitmap.FetchOrder
import BootLogo.Proofs.Bitmap.Words

/-!
# Which bitmaps are shown

* `Requirement`: what is asked of a container, each with the error for one that does not meet it.
* `firstUnmet?`: the first requirement that a container does not meet, in the order of the check.
* `inspect_accepts_iff`: the check passes exactly if all are met, and fails with the error of the first that
  is not.
-/

namespace BootLogo.Bitmap

/-- The pixels are in a format of the layer. -/
def Header.Supported (header : Header) : Prop :=
  (header.compression = uncompressed ∧ header.bitsPerPixel ∈ [1, 4, 8, 16, 24, 32]) ∨
    (header.compression = masked ∧
      ((header.bitsPerPixel = 32 ∧ header.masks = some ⟨0xFF0000, 0xFF00, 0xFF⟩) ∨
        (header.bitsPerPixel = 16 ∧ (header.masks = some ⟨0x7C00, 0x03E0, 0x001F⟩ ∨
          header.masks = some ⟨0xF800, 0x07E0, 0x001F⟩))))

instance (header : Header) : Decidable header.Supported := inferInstanceAs (Decidable (_ ∨ _))

/-- The offset behind the last row, each row filled up to a multiple of four bytes. -/
def Header.pixelEnd (header : Header) : Nat :=
  header.pixelOffset +
    header.height.natAbs * (4 * (header.width.natAbs * header.bitsPerPixel ⌈/⌉ 8 ⌈/⌉ 4))

/-- What is asked of a container. -/
inductive Requirement where
  | signature
  | length
  | format
  | width
  | height
  | limits
  | pixels
  deriving DecidableEq

namespace Requirement

/-- The order in which the requirements are asked for. -/
def order : List Requirement := [signature, length, format, width, height, limits, pixels]

/-- The container meets the requirement. What a field says counts also where the header is cut short, its
missing bytes being zero: `length` is asked for before. -/
def Met (bytes : Bytes) : Requirement → Prop
  | signature => bytes.take 2 = [0x42, 0x4D]
  | length => 54 ≤ bytes.length ∧ ((Header.fields bytes).compression = masked → 66 ≤ bytes.length)
  | format => (Header.fields bytes).Supported
  | width => 0 < (Header.fields bytes).width
  | height => (Header.fields bytes).height ≠ 0
  | limits =>
    (Header.fields bytes).width.natAbs ≤ 65535 ∧ (Header.fields bytes).height.natAbs ≤ 65535
  | pixels => (Header.fields bytes).pixelEnd ≤ bytes.length

instance (bytes : Bytes) : DecidablePred (Met bytes)
  | signature => inferInstanceAs (Decidable (_ = _))
  | length => inferInstanceAs (Decidable (_ ∧ (_ → _)))
  | format => inferInstanceAs (Decidable (Header.Supported _))
  | width => inferInstanceAs (Decidable (_ < _))
  | height => inferInstanceAs (Decidable (_ ≠ _))
  | limits => inferInstanceAs (Decidable (_ ∧ _))
  | pixels => inferInstanceAs (Decidable (_ ≤ _))

/-- What is answered to a container that does not meet the requirement. -/
def error (bytes : Bytes) : Requirement → Error
  | signature => .badSignature
  | length => .truncated (if bytes.length < 54 then 54 else 66) bytes.length
  | format =>
    let header := Header.fields bytes
    .unsupported header.bitsPerPixel header.compression header.masks
  | width => .geometry (.nonPositiveWidth (Header.fields bytes).width)
  | height => .geometry .zeroHeight
  | limits => .geometry (.tooLarge (Header.fields bytes).width (Header.fields bytes).height)
  | pixels => .geometry (.pixelsOutOfBounds (Header.fields bytes).pixelEnd bytes.length)

theorem mem_order (requirement : Requirement) : requirement ∈ order := by
  cases requirement <;> decide

end Requirement

open Requirement (Met order)

/-- The first requirement that the container does not meet. -/
def firstUnmet? (bytes : Bytes) : Option Requirement :=
  order.find? fun requirement => ¬ Met bytes requirement

variable {bytes : Bytes} {requirement earlier : Requirement} {header : Header}
  {format : PixelFormat}

theorem firstUnmet?_eq_none_iff :
    firstUnmet? bytes = none ↔ ∀ requirement, Met bytes requirement := by
  rw [firstUnmet?, List.find?_eq_none]
  simp only [decide_not, Bool.not_eq_true', decide_eq_false_iff_not, not_not]
  exact ⟨fun h requirement => h requirement requirement.mem_order, fun h requirement _ => h requirement⟩

theorem not_met_of_firstUnmet? (h : firstUnmet? bytes = some requirement) : ¬ Met bytes requirement := by
  simpa using List.find?_some h

theorem met_of_firstUnmet? (h : firstUnmet? bytes = some requirement)
    (hearlier : earlier ∈ order.takeWhile (· ≠ requirement)) : Met bytes earlier := by
  obtain ⟨-, before, rest, horder, hbefore⟩ := List.find?_eq_some_iff_append.1 h
  have hmem : earlier ∈ before := by
    rw [horder, List.takeWhile_append] at hearlier
    split at hearlier
    · simpa using hearlier
    · exact List.takeWhile_subset _ hearlier
  simpa using hbefore earlier hmem

/-! ## The header -/

theorem isSigned_iff : isSigned bytes = true ↔ Met bytes .signature := decide_eq_true_iff

theorem parse_of_met (hsignature : Met bytes .signature) (hlength : Met bytes .length) :
    Header.parse bytes = .ok (.fields bytes) :=
  parse_eq_ok_iff.2 ⟨isSigned_iff.2 hsignature, hlength.1, hlength.2, rfl⟩

theorem parse_of_unsigned (h : ¬ Met bytes .signature) : Header.parse bytes = .error .badSignature := by
  rw [← isSigned_iff, Bool.not_eq_true] at h
  rw [Header.parse, if_pos (by rw [h]; rfl)]

theorem parse_of_short (hsignature : Met bytes .signature) (h : ¬ Met bytes .length) :
    Header.parse bytes = .error (Requirement.error bytes .length) := by
  rw [Header.parse, if_neg (by rw [isSigned_iff.2 hsignature]; decide), Requirement.error]
  by_cases hplain : bytes.length < 54
  · rw [if_pos (show bytes.length < Header.plainSize from hplain), if_pos hplain]
    rfl
  · have hmasked : bytes.word 30 = masked ∧ bytes.length < Header.maskedSize := by
      by_contra hnot
      exact h ⟨Nat.le_of_not_lt hplain, fun hword => Nat.le_of_not_lt fun hshort => hnot ⟨hword, hshort⟩⟩
    rw [if_neg (show ¬ bytes.length < Header.plainSize from hplain), if_pos hmasked, if_neg hplain]
    rfl

theorem bitsPerPixel_of_pixelFormat? (h : header.pixelFormat? = some format) :
    format.bitsPerPixel = header.bitsPerPixel := by
  unfold Header.pixelFormat? at h
  split at h <;> split at h <;> cases h <;> symm <;> assumption

theorem pixelFormat?_of_supported (h : header.Supported) : ∃ format, header.pixelFormat? = some format := by
  obtain ⟨hcompression, hbits⟩ | ⟨hcompression, ⟨hbits, hmasks⟩ | ⟨hbits, hmasks | hmasks⟩⟩ := h
  · rw [Header.pixelFormat?, if_pos hcompression]
    simp only [List.mem_cons, List.not_mem_nil, or_false] at hbits
    rcases hbits with hbits | hbits | hbits | hbits | hbits | hbits <;> rw [hbits] <;> exact ⟨_, rfl⟩
  all_goals
    rw [Header.pixelFormat?, if_neg (by rw [hcompression]; decide), hbits, hmasks]
    exact ⟨_, rfl⟩

theorem supported_of_pixelFormat? (h : (Header.fields bytes).pixelFormat? = some format) :
    (Header.fields bytes).Supported := by
  -- masks are read only if the compression says that there are some
  have hmasked {masks : Masks} (hmasks : (Header.fields bytes).masks = some masks) :
      (Header.fields bytes).compression = masked := by
    by_contra hnot
    cases hmasks.symm.trans (if_neg hnot)
  unfold Header.pixelFormat? at h
  split at h
  · rename_i hcompression
    refine .inl ⟨hcompression, ?_⟩
    split at h <;> first | cases h; done | (rename_i hbits; rw [hbits]; decide)
  · split at h
    · rename_i hbits hmasks
      exact .inr ⟨hmasked hmasks, .inl ⟨hbits, hmasks⟩⟩
    · rename_i hbits hmasks
      exact .inr ⟨hmasked hmasks, .inr ⟨hbits, .inl hmasks⟩⟩
    · rename_i hbits hmasks
      exact .inr ⟨hmasked hmasks, .inr ⟨hbits, .inr hmasks⟩⟩
    · cases h

theorem pixelFormat_of_unmet (h : ¬ Met bytes .format) :
    (Header.fields bytes).pixelFormat = .error (Requirement.error bytes .format) := by
  cases hfound : (Header.fields bytes).pixelFormat? with
  | none =>
    rw [Header.pixelFormat, hfound]
    rfl
  | some format => exact absurd (supported_of_pixelFormat? hfound) h

theorem header_of_met (hsignature : Met bytes .signature) (hlength : Met bytes .length)
    (hformat : Met bytes .format) : ∃ format, Header.parse bytes = .ok (.fields bytes) ∧
      (Header.fields bytes).pixelFormat = .ok format ∧
      format.bitsPerPixel = (Header.fields bytes).bitsPerPixel := by
  obtain ⟨format, hfound⟩ := pixelFormat?_of_supported hformat
  exact ⟨format, parse_of_met hsignature hlength, pixelFormat_eq_ok_iff.2 hfound,
    bitsPerPixel_of_pixelFormat? hfound⟩

/-! ## The size -/

theorem limits_iff : Met bytes .limits ↔ ¬ (Layout.sizeLimit < (Header.fields bytes).width.natAbs ∨
    Layout.sizeLimit < (Header.fields bytes).height.natAbs) := by
  rw [not_or, Nat.not_lt, Nat.not_lt]
  rfl

theorem ofSize_of_met (format : PixelFormat) (hwidth : Met bytes .width) (hheight : Met bytes .height)
    (hlimits : Met bytes .limits) : ∃ layout,
      Layout.ofSize format (Header.fields bytes).width (Header.fields bytes).height = .ok layout := by
  rw [Layout.ofSize, if_neg (Int.not_le.2 hwidth), if_neg hheight, if_neg (limits_iff.1 hlimits)]
  exact ⟨_, rfl⟩

theorem ofSize_of_unmet_width (format : PixelFormat) (h : ¬ Met bytes .width) :
    (Layout.ofSize format (Header.fields bytes).width (Header.fields bytes).height).mapError .geometry =
      .error (Requirement.error bytes .width) := by
  rw [Layout.ofSize, if_pos (Int.not_lt.1 h)]
  rfl

theorem ofSize_of_unmet_height (format : PixelFormat) (hwidth : Met bytes .width)
    (h : ¬ Met bytes .height) :
    (Layout.ofSize format (Header.fields bytes).width (Header.fields bytes).height).mapError .geometry =
      .error (Requirement.error bytes .height) := by
  rw [Layout.ofSize, if_neg (Int.not_le.2 hwidth), if_pos (not_not.1 h)]
  rfl

theorem ofSize_of_unmet_limits (format : PixelFormat) (hwidth : Met bytes .width)
    (hheight : Met bytes .height) (h : ¬ Met bytes .limits) :
    (Layout.ofSize format (Header.fields bytes).width (Header.fields bytes).height).mapError .geometry =
      .error (Requirement.error bytes .limits) := by
  rw [limits_iff, not_not] at h
  rw [Layout.ofSize, if_neg (Int.not_le.2 hwidth), if_neg hheight, if_pos h]
  rfl

/-! ## The check -/

theorem stop_eq {layout : Layout} (hbits : format.bitsPerPixel = header.bitsPerPixel)
    (hlayout : Layout.ofSize format header.width header.height = .ok layout) :
    Info.stop ⟨header, format, layout⟩ = header.pixelEnd := by
  rw [Info.stop, Layout.region_of_ofSize hlayout, hbits]
  rfl

theorem inspect_of_parse {error : Error} (h : Header.parse bytes = .error error) :
    inspect bytes = .error error := by
  rw [inspect, h]
  rfl

theorem inspect_of_pixelFormat {error : Error} (hheader : Header.parse bytes = .ok header)
    (h : header.pixelFormat = .error error) : inspect bytes = .error error := by
  rw [inspect, hheader]
  show (header.pixelFormat >>= _) = _
  rw [h]
  rfl

theorem inspect_of_header (hheader : Header.parse bytes = .ok header)
    (hformat : header.pixelFormat = .ok format) : inspect bytes =
      (Layout.ofSize format header.width header.height).mapError Error.geometry >>= fun layout =>
        if bytes.length < Info.stop ⟨header, format, layout⟩ then
          .error (.geometry (.pixelsOutOfBounds (Info.stop ⟨header, format, layout⟩) bytes.length))
        else .ok ⟨header, format, layout⟩ := by
  rw [inspect, hheader]
  show (header.pixelFormat >>= _) = _
  rw [hformat]
  rfl

theorem inspect_of_ofSize {error : Error} (hsignature : Met bytes .signature)
    (hlength : Met bytes .length) (hformat : Met bytes .format)
    (h : ∀ format, (Layout.ofSize format (Header.fields bytes).width
      (Header.fields bytes).height).mapError Error.geometry = .error error) :
    inspect bytes = .error error := by
  obtain ⟨format, hparse, hformat, -⟩ := header_of_met hsignature hlength hformat
  rw [inspect_of_header hparse hformat, h]
  rfl

theorem inspect_of_met (h : ∀ requirement, Met bytes requirement) :
    ∃ info, inspect bytes = .ok info ∧ info.header = .fields bytes ∧
      info.stop = (Header.fields bytes).pixelEnd := by
  obtain ⟨format, hparse, hformat, hbits⟩ := header_of_met (h .signature) (h .length) (h .format)
  obtain ⟨layout, hlayout⟩ := ofSize_of_met format (h .width) (h .height) (h .limits)
  have hstop := stop_eq hbits hlayout
  exact ⟨⟨.fields bytes, format, layout⟩,
    inspect_eq_ok_iff.2 ⟨hparse, hformat, hlayout, hstop ▸ h .pixels⟩, rfl, hstop⟩

theorem inspect_of_firstUnmet? (h : firstUnmet? bytes = some requirement) :
    inspect bytes = .error (requirement.error bytes) := by
  have hunmet := not_met_of_firstUnmet? h
  have hmet (earlier : Requirement) (hearlier : earlier ∈ order.takeWhile (· ≠ requirement)) :=
    met_of_firstUnmet? h hearlier
  cases requirement with
  | signature => exact inspect_of_parse (parse_of_unsigned hunmet)
  | length => exact inspect_of_parse (parse_of_short (hmet .signature (by decide)) hunmet)
  | format =>
    have hparse := parse_of_met (hmet .signature (by decide)) (hmet .length (by decide))
    exact inspect_of_pixelFormat hparse (pixelFormat_of_unmet hunmet)
  | width =>
    refine inspect_of_ofSize (hmet .signature (by decide)) (hmet .length (by decide))
      (hmet .format (by decide)) fun format => ?_
    exact ofSize_of_unmet_width format hunmet
  | height =>
    refine inspect_of_ofSize (hmet .signature (by decide)) (hmet .length (by decide))
      (hmet .format (by decide)) fun format => ?_
    exact ofSize_of_unmet_height format (hmet .width (by decide)) hunmet
  | limits =>
    refine inspect_of_ofSize (hmet .signature (by decide)) (hmet .length (by decide))
      (hmet .format (by decide)) fun format => ?_
    exact ofSize_of_unmet_limits format (hmet .width (by decide)) (hmet .height (by decide)) hunmet
  | pixels =>
    obtain ⟨format, hparse, hformat, hbits⟩ := header_of_met (hmet .signature (by decide))
      (hmet .length (by decide)) (hmet .format (by decide))
    obtain ⟨layout, hlayout⟩ := ofSize_of_met format (hmet .width (by decide))
      (hmet .height (by decide)) (hmet .limits (by decide))
    rw [inspect_of_header hparse hformat, hlayout]
    show (if bytes.length < _ then _ else _) = _
    rw [stop_eq hbits hlayout]
    exact if_pos (Nat.not_le.1 hunmet)

/-- **Exactly the containers that meet every requirement are accepted**, their pixels lying from the offset
that the header states up to the end of the last row. The error of the others is that of the first
requirement which they do not meet, and no number on the way leaves its machine word. -/
theorem inspect_accepts_iff (bytes : Bytes) :
    ((∃ info, inspect bytes = .ok info) ↔ ∀ requirement, Met bytes requirement) ∧
      (∀ info, inspect bytes = .ok info → info.header = .fields bytes ∧
        info.start = (Header.fields bytes).pixelOffset ∧ info.stop = (Header.fields bytes).pixelEnd) ∧
      (∀ error, inspect bytes = .error error ↔
        ∃ requirement, firstUnmet? bytes = some requirement ∧ error = requirement.error bytes) ∧
      inspectInWords bytes = (inspect bytes).mapError .refused := by
  cases hfirst : firstUnmet? bytes with
  | none =>
    have hmet := firstUnmet?_eq_none_iff.1 hfirst
    obtain ⟨info, hinfo, hheader, hstop⟩ := inspect_of_met hmet
    refine ⟨⟨fun _ => hmet, fun _ => ⟨info, hinfo⟩⟩, fun found hfound => ?_, fun error => ?_,
      inspectInWords_eq bytes⟩
    · cases hfound.symm.trans hinfo
      exact ⟨hheader, congrArg Header.pixelOffset hheader, hstop⟩
    · rw [hinfo]
      exact ⟨nofun, fun ⟨_, hnone, _⟩ => nomatch hnone⟩
  | some requirement =>
    have herror := inspect_of_firstUnmet? hfirst
    have hunmet := not_met_of_firstUnmet? hfirst
    refine ⟨⟨?_, fun hmet => absurd (hmet requirement) hunmet⟩, fun found hfound => ?_, fun error => ?_,
      inspectInWords_eq bytes⟩
    · rintro ⟨info, hinfo⟩
      cases hinfo.symm.trans herror
    · cases hfound.symm.trans herror
    · rw [herror]
      constructor
      · rintro ⟨⟩
        exact ⟨requirement, rfl, rfl⟩
      · rintro ⟨_, ⟨⟩, rfl⟩
        rfl

/-- The rows of `checkeredDown` end where it does. With the least height that a header can state, it is both
too large and too short, and the former is what is answered. -/
theorem inspect_accepts_iff_checkered :
    (∃ info, inspect checkeredDown = .ok info ∧ info.start = 54 ∧ info.stop = 62) ∧
      inspect (checkered (2 ^ 31) []) = .error (.geometry (.tooLarge 3 (-2 ^ 31))) := by
  obtain ⟨haccepts, hrange, -, -⟩ := inspect_accepts_iff checkeredDown
  obtain ⟨info, hinfo⟩ := haccepts.2 (firstUnmet?_eq_none_iff.1 (by decide +kernel))
  obtain ⟨-, hstart, hstop⟩ := hrange info hinfo
  refine ⟨⟨info, hinfo, hstart.trans (by decide +kernel), hstop.trans (by decide +kernel)⟩, ?_⟩
  obtain ⟨-, -, herror, -⟩ := inspect_accepts_iff (checkered (2 ^ 31) [])
  exact (herror _).2 ⟨.limits, by decide +kernel, by decide +kernel⟩

end BootLogo.Bitmap

import BootLogo.Hardware.RegisterFile
import BootLogo.Proofs.Hardware.Replay

/-!
# The block of memory is a register file

Offsets are put together from several bases and an index, so it takes an argument that no two registers
meet. The block is seen as `Region`s: runs of words that a map puts somewhere or does not have.

* `Map.Laid`: the regions of a map lie apart, and a table of taps stays among the overlay's registers. The
  three maps are laid out so (`laid_of_known`).
* `cell_put`: words that are written into a region are found there, and nowhere else.
* `cell_after`: after any calls a word is what the last call left there that reached it.
* `zeroed_keeps`: what that means for registers, palettes and the two status words.
-/

namespace BootLogo

open Register (Map)

/-! ## Regions -/

/-- A run of words in the block. -/
inductive Region where
  | config
  | layerConfig (layer : Layer)
  | layerEnable (layer : Layer)
  | layerAddr (layer : Layer)
  | layerCtrl (layer : Layer)
  | layerNext (layer : Layer)
  | attrUpdate
  | enable
  | disable
  | status
  | attrStatus
  | palette (layer : Layer)
  deriving DecidableEq

namespace Region

/-- How many words a region has. -/
def words : Region → Nat
  | config => 7
  | layerConfig _ => 41
  | palette _ => 256
  | _ => 1

/-- The regions of a layer. -/
def ofLayer (layer : Layer) : List Region :=
  [layerConfig layer, layerEnable layer, layerAddr layer, layerCtrl layer, layerNext layer, palette layer]

def all : List Region :=
  [config, attrUpdate, enable, disable, status, attrStatus] ++ ofLayer .base ++ ofLayer .heo

theorem mem_all (region : Region) : region ∈ all := by
  rcases region with _ | layer | layer | layer | layer | layer | _ | _ | _ | _ | _ | layer <;>
    first | decide | (cases layer <;> decide)

end Region

/-- The region that a register is in. -/
def Register.region : Register → Region
  | .cfg _ => .config
  | .layerCfg layer _ => .layerConfig layer
  | .layerEnable layer => .layerEnable layer
  | .layerAddr layer => .layerAddr layer
  | .layerCtrl layer => .layerCtrl layer
  | .layerNext layer => .layerNext layer
  | .attrUpdate => .attrUpdate

/-- Which word of its region a register is. -/
def Register.index : Register → Nat
  | .cfg index | .layerCfg _ index => index
  | _ => 0

theorem Register.eq_of_region {register other : Register} (hregion : register.region = other.region)
    (hindex : register.index = other.index) : register = other := by
  cases register <;> cases other <;> simp_all [Register.region, Register.index]

/-- Registers that the controllers have room for. -/
def Register.Usual (register : Register) : Prop := register.index < register.region.words

instance (register : Register) : Decidable register.Usual :=
  inferInstanceAs (Decidable (register.index < register.region.words))

namespace Register.Map

/-- Where a region starts, if this generation has it. -/
def start? (map : Map) : Region → Option Nat
  | .config => some 0
  | .layerConfig layer => some (map.layer layer).cfg
  | .layerEnable layer => some (map.layer layer).enable
  | .layerAddr layer => some (map.layer layer).addr
  | .layerCtrl layer => (map.layer layer).ctrl
  | .layerNext layer => (map.layer layer).next
  | .attrUpdate => map.attrUpdate
  | .enable => some enableOffset
  | .disable => some disableOffset
  | .status => some statusOffset
  | .attrStatus => map.attrStatus
  | .palette layer => (map.layer layer).clut

theorem offset?_eq (map : Map) (register : Register) :
    map.offset? register = (map.start? register.region).map (· + 4 * register.index) := by
  have hone (place : Option Nat) : place.map (· + 4 * 0) = place := Option.map_id_fun' ▸ rfl
  cases register with
  | cfg index => exact congrArg some (Nat.zero_add _).symm
  | layerCfg layer index => rfl
  | _ => exact (hone _).symm

/-- The two regions share no word. -/
def Apart (map : Map) (region other : Region) : Prop :=
  ∀ start ∈ map.start? region, ∀ start' ∈ map.start? other,
    start + 4 * region.words ≤ start' ∨ start' + 4 * other.words ≤ start

/-- No two regions meet, all lie in the block at multiples of four, and the taps of both axes stay among the
overlay's registers. -/
structure Laid (map : Map) : Prop where
  apart : ∀ region ∈ Region.all, ∀ other ∈ Region.all, region ≠ other → map.Apart region other
  inside : ∀ region ∈ Region.all, ∀ start ∈ map.start? region,
    start % 4 = 0 ∧ start + 4 * region.words ≤ RegisterFile.size
  taps : ∀ indices ∈ map.coefficients, indices.1 + 16 ≤ 41 ∧ indices.2 + 8 ≤ 41

instance (map : Map) (region other : Region) : Decidable (map.Apart region other) :=
  inferInstanceAs (Decidable (∀ start ∈ map.start? region, ∀ start' ∈ map.start? other,
    start + 4 * region.words ≤ start' ∨ start' + 4 * other.words ≤ start))

end Register.Map

theorem laid_of_known {map : Map}
    (h : map = Register.sama5d2 ∨ map = Register.sam9x60 ∨ map = Register.sam9x7) : map.Laid := by
  rcases h with rfl | rfl | rfl <;> constructor <;> decide

namespace Palette

variable {blue green red : UInt8}

/-- The word of an entry that is there in full: blue in the lowest place, then green, then red. -/
def colour? (palette : Bytes) (i : Nat) : Option UInt32 :=
  if 4 * i + 4 ≤ palette.length then
    some (.ofNat (palette.byte (4 * i) ||| palette.byte (4 * i + 1) <<< 8 |||
      palette.byte (4 * i + 2) <<< 16))
  else none

theorem word_eq : word blue green red =
    .ofNat (blue.toNat ||| green.toNat <<< 8 ||| red.toNat <<< 16) := by
  have hblue : blue.toNat < 2 ^ 8 := blue.toNat_lt
  have hlow : green.toNat <<< 8 + blue.toNat < 2 ^ 16 := by
    have hgreen := green.toNat_lt
    rw [Nat.shiftLeft_eq]
    omega
  rw [word, Nat.or_comm blue.toNat, ← Nat.shiftLeft_add_eq_or_of_lt hblue, Nat.or_comm,
    ← Nat.shiftLeft_add_eq_or_of_lt hlow, Nat.shiftLeft_eq, Nat.shiftLeft_eq]
  congr 1
  omega

theorem words_getElem? (palette : Bytes) (i : Nat) : (words palette)[i]? = colour? palette i := by
  induction palette using words.induct generalizing i with
  | case1 blue green red unused rest ih =>
    have hlength : (blue :: green :: red :: unused :: rest).length = rest.length + 4 := rfl
    cases i with
    | zero => simp [words, colour?, hlength, word_eq, Bytes.byte]
    | succ i =>
      have hbyte (offset : Nat) :
          Bytes.byte (blue :: green :: red :: unused :: rest) (offset + 4) = Bytes.byte rest offset := rfl
      have hplace : 4 * (i + 1) = 4 * i + 4 := Nat.mul_succ 4 i
      rw [words, List.getElem?_cons_succ, ih, colour?, colour?, hlength, hplace, Nat.add_right_comm _ 4 1,
        Nat.add_right_comm _ 4 2, hbyte, hbyte, hbyte]
      simp only [Nat.add_le_add_iff_right]
  | case2 palette hshort =>
    have hlt : palette.length < 4 := by
      rcases palette with _ | ⟨blue, _ | ⟨green, _ | ⟨red, _ | ⟨unused, rest⟩⟩⟩⟩
      case cons.cons.cons.cons => exact absurd rfl (hshort blue green red unused rest)
      all_goals simp
    rw [colour?, if_neg (by omega), words]
    · rfl
    · exact hshort

end Palette

namespace RegisterFile

variable {map : Map} {file : RegisterFile} {region other : Region} {values : List UInt32} {value : UInt32}
  {offset place first i : Nat} {register : Register} {call : Call} {calls : List Call}

/-! ## Words -/

/-- The block has all its words. -/
def Whole (file : RegisterFile) : Prop := file.words.size = size / 4

theorem Whole.store (h : file.Whole) : (file.store offset value).Whole :=
  Array.size_setIfInBounds.trans h

theorem Whole.storeAll (h : file.Whole) : (file.storeAll offset values).Whole := by
  induction values generalizing file offset with
  | nil => exact h
  | cons value rest ih => exact ih h.store

theorem load_store (h : file.Whole) (hinside : offset < size) :
    (file.store offset value).load place = if offset / 4 = place / 4 then value else file.load place := by
  have hbound : offset / 4 < file.words.size := by
    rw [h]
    simp only [size] at hinside ⊢
    omega
  by_cases hsame : offset / 4 = place / 4
  · simp [load, store, hsame, hsame ▸ hbound]
  · simp [load, store, Array.getElem?_setIfInBounds_ne hsame, hsame]

theorem load_storeAll (h : file.Whole) (hoffset : offset % 4 = 0) (hplace : place % 4 = 0)
    (hinside : offset + 4 * values.length ≤ size) :
    (file.storeAll offset values).load place =
      if offset ≤ place then values[(place - offset) / 4]?.getD (file.load place)
      else file.load place := by
  induction values generalizing file offset with
  | nil => simp [storeAll]
  | cons value rest ih =>
    rw [List.length_cons] at hinside
    rw [storeAll, ih h.store (by omega) (by omega), load_store h (by omega)]
    -- the first word is here, or `place` lies before or behind it
    rcases Nat.lt_trichotomy place offset with hbefore | rfl | hbehind
    · rw [if_neg (by omega), if_neg (by omega), if_neg (by omega)]
    · rw [if_neg (by omega), if_pos rfl, if_pos (Nat.le_refl _), Nat.sub_self]
      rfl
    · have hnext : (place - offset) / 4 = (place - (offset + 4)) / 4 + 1 := by omega
      rw [if_pos (by omega), if_neg (by omega), if_pos (by omega), hnext, List.getElem?_cons_succ]

/-- A word of a region, zero if the map lacks the region. -/
def cell (map : Map) (region : Region) (i : Nat) (file : RegisterFile) : UInt32 :=
  match map.start? region with
  | some start => file.load (start + 4 * i)
  | none => 0

/-- The block after words have been written into a region, if the map has it. -/
def put (map : Map) (region : Region) (first : Nat) (values : List UInt32) (file : RegisterFile) :
    RegisterFile :=
  match map.start? region with
  | some start => file.storeAll (start + 4 * first) values
  | none => file

theorem Whole.put (h : file.Whole) : (file.put map region first values).Whole := by
  rw [RegisterFile.put]
  split
  · exact h.storeAll
  · exact h

/-- **What is written into a region is found there and nowhere else.** -/
theorem cell_put (hmap : map.Laid) (h : file.Whole) (hfit : first + values.length ≤ region.words)
    (hi : i < other.words) (hother : (map.start? other).isSome) :
    (file.put map region first values).cell map other i =
      if region = other ∧ first ≤ i then values[i - first]?.getD (file.cell map other i)
      else file.cell map other i := by
  obtain ⟨start', hstart'⟩ := Option.isSome_iff_exists.1 hother
  obtain ⟨haligned', -⟩ := hmap.inside other other.mem_all start' hstart'
  simp only [cell, put, hstart']
  cases hstart : map.start? region with
  | none =>
    have hne : region ≠ other := fun heq => by rw [heq, hstart'] at hstart; cases hstart
    simp [hne]
  | some start =>
    obtain ⟨haligned, hinside⟩ := hmap.inside region region.mem_all start hstart
    dsimp only
    rw [load_storeAll h (by omega) (by omega) (by omega)]
    by_cases hsame : region = other
    · subst hsame
      obtain rfl : start = start' := Option.some.inj (hstart.symm.trans hstart')
      have hindex : (start + 4 * i - (start + 4 * first)) / 4 = i - first := by omega
      by_cases hfirst : first ≤ i
      · rw [if_pos (by omega), if_pos ⟨rfl, hfirst⟩, hindex]
      · rw [if_neg (by omega), if_neg fun hand => hfirst hand.2]
    · rw [if_neg fun hand : region = other ∧ _ => hsame hand.1]
      split
      · -- the other region lies behind this one
        have hbehind : values.length ≤ (start' + 4 * i - (start + 4 * first)) / 4 := by
          have := hmap.apart region region.mem_all other other.mem_all hsame start hstart start' hstart'
          omega
        rw [List.getElem?_eq_none hbehind]
        rfl
      · rfl

/-! ## Calls -/

/-- Where a call writes: the region, the first word in it, and what is written from there on. -/
def target? (map : Map) : Call → Option (Region × Nat × List UInt32)
  | .write register value => some (register.region, register.index, [value])
  | .enable signals => some (.enable, 0, [signals.bits])
  | .disable signals => some (.disable, 0, [signals.bits])
  | .palette layer words => some (.palette layer, 0, words)
  | .taps axis table =>
    map.coefficients.map fun indices => (.layerConfig .heo, firstTap indices axis, table)

theorem apply_eq (map : Map) (call : Call) (file : RegisterFile) :
    apply map call file =
      (target? map call).elim file fun (region, first, values) => file.put map region first values := by
  cases call with
  | write register value =>
    simp only [apply, write, target?, Option.elim, put, Register.Map.offset?_eq]
    cases map.start? register.region <;> rfl
  | enable signals => rfl
  | disable signals => rfl
  | palette layer words => rfl
  | taps axis table =>
    simp only [apply, target?]
    cases map.coefficients <;> rfl

/-- Calls that name usual registers and have no more words than there is room for. -/
def Usual : Call → Prop
  | .write register _ => register.Usual
  | .palette _ words => words.length ≤ 256
  | .taps .horizontal table => table.length ≤ 16
  | .taps .vertical table => table.length ≤ 8
  | _ => True

instance : DecidablePred Usual
  | .write register _ => inferInstanceAs (Decidable register.Usual)
  | .palette _ words => inferInstanceAs (Decidable (words.length ≤ 256))
  | .taps .horizontal table => inferInstanceAs (Decidable (table.length ≤ 16))
  | .taps .vertical table => inferInstanceAs (Decidable (table.length ≤ 8))
  | .enable _ | .disable _ => inferInstanceAs (Decidable True)

theorem Usual.fits (hmap : map.Laid) (h : Usual call)
    (htarget : target? map call = some (region, first, values)) :
    first + values.length ≤ region.words := by
  cases call with
  | write register value => cases htarget; exact h
  | enable signals => cases htarget; exact Nat.le_refl _
  | disable signals => cases htarget; exact Nat.le_refl _
  | palette layer words =>
    cases htarget
    rw [Nat.zero_add]
    exact h
  | taps axis table =>
    obtain ⟨indices, hindices, heq⟩ := Option.map_eq_some_iff.1 htarget
    obtain ⟨hx, hy⟩ := hmap.taps indices hindices
    cases heq
    cases axis <;> simp only [Usual] at h <;> simp only [firstTap, Region.words] <;> omega

/-- What a call leaves in a word of a region, if it reaches it. -/
def leaves? (map : Map) (region : Region) (i : Nat) (call : Call) : Option UInt32 :=
  (target? map call).bind fun (reached, first, values) =>
    if reached = region ∧ first ≤ i then values[i - first]? else none

theorem Whole.apply (h : file.Whole) : (apply map call file).Whole := by
  rw [apply_eq]
  cases target? map call with
  | none => exact h
  | some target => exact h.put

theorem cell_apply (hmap : map.Laid) (h : file.Whole) (hcall : Usual call) (hi : i < region.words)
    (hregion : (map.start? region).isSome) :
    (apply map call file).cell map region i =
      (leaves? map region i call).getD (file.cell map region i) := by
  rw [apply_eq, leaves?]
  cases htarget : target? map call with
  | none => rfl
  | some target =>
    obtain ⟨reached, first, values⟩ := target
    simp only [Option.elim_some, Option.bind_some]
    rw [cell_put hmap h (hcall.fits hmap htarget) hi hregion]
    split <;> rfl

/-! ## Any number of calls -/

/-- The block after some calls. -/
def after (map : Map) (calls : List Call) (file : RegisterFile) : RegisterFile :=
  calls.foldl (fun file call => (hardware map).apply call file) file

theorem cell_after (hmap : map.Laid) (h : file.Whole) (hcalls : ∀ call ∈ calls, Usual call)
    (hi : i < region.words) (hregion : (map.start? region).isSome) :
    (file.after map calls).cell map region i =
      (last? (leaves? map region i) calls).getD (file.cell map region i) := by
  induction calls generalizing file with
  | nil => rfl
  | cons call calls ih =>
    have hwhole : (apply map call file).Whole := h.apply
    have hlater := ih hwhole fun other hother => hcalls other (List.mem_cons_of_mem _ hother)
    show ((apply map call file).after map calls).cell map region i = _
    rw [hlater, cell_apply hmap h (hcalls call List.mem_cons_self) hi hregion, last?_cons]
    cases last? (leaves? map region i) calls <;> rfl

/-! ## Registers, palettes and status words -/

/-- The tap that a table puts into a register, the first one at index `first` of the overlay. -/
def tap? (first : Nat) (table : List UInt32) : Register → Option UInt32
  | .layerCfg .heo index => if first ≤ index then table[index - first]? else none
  | _ => none

/-- What a call leaves in a register: the value it writes there, or the tap it loads there. -/
def leavesIn? (map : Map) (register : Register) : Call → Option UInt32
  | .taps axis table =>
    map.coefficients.bind fun indices => tap? (firstTap indices axis) table register
  | call => call.written? register

/-- The entry that a call gives a palette. -/
def colour? (layer : Layer) (i : Nat) : Call → Option UInt32
  | .palette target words => if target = layer then words[i]? else none
  | _ => none

/-- The map has what the call is for. -/
def reaches (map : Map) : Call → Bool
  | .write register _ => (map.offset? register).isSome
  | .palette layer _ => (map.layer layer).clut.isSome
  | .taps _ _ => map.coefficients.isSome
  | _ => true

theorem leaves?_register (map : Map) (register : Register) :
    leaves? map register.region register.index = leavesIn? map register := by
  funext call
  cases call with
  | write target value =>
    simp only [leaves?, target?, Option.bind_some, leavesIn?, Call.written?]
    by_cases hsame : target = register
    · subst hsame
      simp
    · rw [if_neg hsame]
      split
      · next hand =>
        have hlt : target.index < register.index :=
          Nat.lt_of_le_of_ne hand.2 fun hindex => hsame (Register.eq_of_region hand.1 hindex)
        exact List.getElem?_eq_none (Nat.sub_pos_of_lt hlt)
      · rfl
  | taps axis table =>
    simp only [leaves?, target?, leavesIn?]
    cases map.coefficients with
    | none => rfl
    | some indices =>
      simp only [Option.map_some, Option.bind_some]
      rcases register with index | ⟨layer, index⟩ | layer | layer | layer | layer | _
      case layerCfg => cases layer <;> simp [Register.region, Register.index, tap?]
      all_goals simp [Register.region, tap?]
  | enable signals => cases register <;> rfl
  | disable signals => cases register <;> rfl
  | palette layer words => cases register <;> rfl

theorem leaves?_palette (map : Map) (layer : Layer) (i : Nat) :
    leaves? map (.palette layer) i = colour? layer i := by
  funext call
  cases call with
  | write register value => cases register <;> rfl
  | enable signals => rfl
  | disable signals => rfl
  | palette target words =>
    simp only [leaves?, target?, Option.bind_some, colour?, Region.palette.injEq, Nat.zero_le, and_true,
      Nat.sub_zero]
  | taps axis table =>
    simp only [leaves?, target?]
    cases map.coefficients <;> rfl

theorem leaves?_status (map : Map) (call : Call) (hregion : region = .status ∨ region = .attrStatus) :
    leaves? map region 0 call = none := by
  have hother (reached : Region) (hreached : reached ≠ .status ∧ reached ≠ .attrStatus) (first : Nat)
      (values : List UInt32) :
      (if reached = region ∧ first ≤ 0 then values[0 - first]? else none) = none := by
    refine if_neg fun hand => ?_
    rcases hregion with rfl | rfl
    · exact hreached.1 hand.1
    · exact hreached.2 hand.1
  cases call with
  | write register value => exact hother _ (by cases register <;> simp [Register.region]) _ _
  | taps axis table =>
    simp only [leaves?, target?]
    cases map.coefficients with
    | none => rfl
    | some indices => exact hother _ (by simp) _ _
  | _ => exact hother _ (by simp) _ _

theorem apply_of_not_reaches (h : reaches map call = false) : apply map call file = file := by
  have hnone {α : Type} {place : Option α} (h : place.isSome = false) : place = none :=
    Option.isNone_iff_eq_none.1 (Option.isSome_eq_false_iff.1 h)
  cases call with
  | write register value => simp only [apply, write, hnone h]
  | palette layer words => simp only [apply, hnone h]
  | taps axis table => simp only [apply, hnone h]
  | enable signals => cases h
  | disable signals => cases h

theorem after_filter : file.after map (calls.filter (reaches map)) = file.after map calls := by
  induction calls generalizing file with
  | nil => rfl
  | cons call calls ih =>
    cases hreaches : reaches map call with
    | true =>
      rw [List.filter_cons_of_pos hreaches]
      exact ih
    | false =>
      rw [List.filter_cons_of_neg (by simp [hreaches]), ih]
      exact congrArg (after map calls) (apply_of_not_reaches hreaches).symm

theorem replay_eq (trace : Trace) : (hardware map).replay file trace = file.after map trace.calls := by
  induction trace generalizing file with
  | nil => rfl
  | cons event rest ih => cases event <;> exact ih

theorem readsBack (map : Map) (file : RegisterFile) : (hardware map).ReadsBack file
    fun calls register => (file.after map calls).read map register := by
  intro trace register
  rw [replay_eq]
  rfl

theorem read_eq (map : Map) (register : Register) (file : RegisterFile) :
    (hardware map).config register file = file.cell map register.region register.index := by
  show file.read map register = _
  rw [read, cell, Register.Map.offset?_eq]
  cases map.start? register.region <;> rfl

theorem zeroed_whole : zeroed.Whole := Array.size_replicate

theorem cell_zeroed (map : Map) (region : Region) (i : Nat) : zeroed.cell map region i = 0 := by
  rw [cell]
  split
  · next start hstart =>
    rw [load, zeroed, Array.getD_eq_getD_getElem?, Array.getElem?_replicate]
    split <;> rfl
  · rfl

/-- What the block holds after some calls to a block of zeroes. -/
structure Keeps (map : Map) (calls : List Call) (file : RegisterFile) : Prop where
  /-- A register reads as what was left in it last, zero if nothing was. -/
  register : ∀ register : Register, register.Usual → (map.offset? register).isSome →
    (hardware map).config register file = (last? (leavesIn? map register) calls).getD 0
  /-- A word of a palette is the last entry with its number. -/
  palette : ∀ layer, ∀ start ∈ (map.layer layer).clut, ∀ i < 256,
    file.load (start + 4 * i) = (last? (colour? layer i) calls).getD 0
  /-- What the map lacks reads as zero, and calls for it change nothing. -/
  lacking : ∀ register, map.offset? register = none → (hardware map).config register file = 0
  reached : zeroed.after map (calls.filter (reaches map)) = file
  /-- The status words are as they were. -/
  status : file.load Register.Map.statusOffset = zeroed.load Register.Map.statusOffset
  attrStatus : ∀ offset ∈ map.attrStatus, file.load offset = zeroed.load offset

/-- **The block is a register file** for each of the three maps, whatever the calls were; and the words of
a palette are its entries. -/
theorem zeroed_keeps {map : Map}
    (hmap : map = Register.sama5d2 ∨ map = Register.sam9x60 ∨ map = Register.sam9x7) {calls : List Call}
    (hcalls : ∀ call ∈ calls, Usual call) :
    Keeps map calls (zeroed.after map calls) ∧
      ∀ (palette : Bytes) (i : Nat), (Palette.words palette)[i]? = Palette.colour? palette i := by
  have hlaid := laid_of_known hmap
  have hcell {region : Region} {i : Nat} (hi : i < region.words) (hregion : (map.start? region).isSome) :
      (zeroed.after map calls).cell map region i = (last? (leaves? map region i) calls).getD 0 := by
    rw [cell_after hlaid zeroed_whole hcalls hi hregion, cell_zeroed]
  have hkept {region : Region} {offset : Nat} (hregion : region = .status ∨ region = .attrStatus)
      (hstart : map.start? region = some offset) :
      (zeroed.after map calls).load offset = zeroed.load offset := by
    have hnone : last? (leaves? map region 0) calls = none :=
      List.findSome?_eq_none_iff.2 fun call _ => leaves?_status map call hregion
    have hword : 0 < region.words := by rcases hregion with rfl | rfl <;> decide
    have hafter := cell_after hlaid zeroed_whole hcalls hword (by rw [hstart]; rfl)
    simpa only [hnone, cell, hstart, Nat.mul_zero, Nat.add_zero, Option.getD_none] using hafter
  refine ⟨?_, Palette.words_getElem?⟩
  constructor
  case register =>
    intro register husual hhas
    rw [Register.Map.offset?_eq, Option.isSome_map] at hhas
    rw [read_eq, hcell husual hhas, leaves?_register]
  case palette =>
    intro layer start hstart i hi
    have hfits : i < (Region.palette layer).words := hi
    have hplace : map.start? (.palette layer) = some start := hstart
    have hword := hcell hfits (by rw [hplace]; rfl)
    simpa only [leaves?_palette, cell, hplace] using hword
  case lacking =>
    intro register hnone
    show read map register _ = 0
    rw [read, hnone]
  case reached => exact after_filter
  case status => exact hkept (.inl rfl) rfl
  case attrStatus => exact fun offset hoffset => hkept (.inr rfl) hoffset

theorem zeroed_keeps_taps :
    Keeps Register.sama5d2
        [.write .attrUpdate 1, .taps .vertical [7, 8], .write (.layerCfg .heo 34) 9, .palette .heo [5],
          .enable Signals.clock]
        (zeroed.after Register.sama5d2
          [.write .attrUpdate 1, .taps .vertical [7, 8], .write (.layerCfg .heo 34) 9, .palette .heo [5],
            .enable Signals.clock]) ∧
      ∀ (palette : Bytes) (i : Nat), (Palette.words palette)[i]? = Palette.colour? palette i :=
  zeroed_keeps (.inl rfl) (by decide)

end RegisterFile

end BootLogo

import NewProxy.Text
import Mathlib.Data.List.Sort
import Mathlib.Tactic.Basic

/-!
# Reserved ports

The NAT ports must be kept from the kernel's own choice of local ports. The
reserved ones are a text of ports and ranges in any order; they are sorted and
merged, and a required range must then lie in one of the merged ranges.
-/
namespace NewProxy

section Ranges

/-!
Ranges of numbers with gaps between them, over any type of ranges with two ends.
-/

variable {α : Type} {lo hi : α → ℕ} {ranges : List α}

/-- The ranges ascend and leave at least one number free between two of them. -/
def Apart (lo hi : α → ℕ) (ranges : List α) : Prop :=
  ranges.Pairwise fun a b => hi a + 1 < lo b

theorem Apart.trichotomy (h : Apart lo hi ranges) {a b : α} (ha : a ∈ ranges) (hb : b ∈ ranges) :
    a = b ∨ hi a + 1 < lo b ∨ hi b + 1 < lo a := by
  induction ranges with
  | nil => cases ha
  | cons c rest ih =>
    obtain ⟨hc, hrest⟩ := List.pairwise_cons.mp h
    rcases List.mem_cons.mp ha with hac | ha
    · rcases List.mem_cons.mp hb with hbc | hb
      · exact .inl (hac.trans hbc.symm)
      · exact .inr (.inl (hac ▸ hc b hb))
    · rcases List.mem_cons.mp hb with hbc | hb
      · exact .inr (.inr (hbc ▸ hc a ha))
      · exact ih hrest ha hb

/-- A run of numbers that the ranges cover lies in one of them: the first number
behind the range it starts in is free. -/
theorem Apart.covers_iff (h : Apart lo hi ranges) {first last : ℕ} (hle : first ≤ last) :
    (∀ n, first ≤ n → n ≤ last → ∃ a ∈ ranges, lo a ≤ n ∧ n ≤ hi a) ↔
      ∃ a ∈ ranges, lo a ≤ first ∧ last ≤ hi a := by
  constructor
  · intro hall
    obtain ⟨a, ha, hlo, hhi⟩ := hall first le_rfl hle
    refine ⟨a, ha, hlo, ?_⟩
    by_contra hlast
    obtain ⟨b, hb, hblo, hbhi⟩ := hall (hi a + 1) (by omega) (by omega)
    rcases h.trichotomy ha hb with rfl | hab | hba
    · omega
    · omega
    · omega
  · rintro ⟨a, ha, hlo, hhi⟩ n hfirst hlast
    exact ⟨a, ha, by omega, by omega⟩

end Ranges

inductive PortReservationError (ε : Type) where
  | io (error : ε)
  | invalidReservedPorts (text : Text)
  | missingReservation (start stop : UInt16)
  deriving DecidableEq

/-- What `PortRange::new` accepts. -/
structure PortRange where
  start : UInt16
  stop : UInt16
  positive : start ≠ 0
  ordered : start ≤ stop
  deriving DecidableEq

namespace PortRange

variable {ε : Type}

def new (start stop : UInt16) : Except (PortReservationError ε) PortRange :=
  if h : start ≠ 0 ∧ start ≤ stop then .ok ⟨start, stop, h.1, h.2⟩
  else .error (.invalidReservedPorts (Text.decimal start ++ '-' :: Text.decimal stop))

def lo (range : PortRange) : ℕ := range.start.toNat

def hi (range : PortRange) : ℕ := range.stop.toNat

theorem lo_le_hi (range : PortRange) : range.lo ≤ range.hi :=
  UInt16.le_iff_toNat_le.mp range.ordered

def Contains (range : PortRange) (port : UInt16) : Prop := range.start ≤ port ∧ port ≤ range.stop

theorem contains_iff {range : PortRange} {port : UInt16} :
    range.Contains port ↔ range.lo ≤ port.toNat ∧ port.toNat ≤ range.hi := by
  simp only [Contains, UInt16.le_iff_toNat_le, lo, hi]

/-- `last.end = last.end.max(range.end)`. -/
def extend (last range : PortRange) : PortRange where
  start := last.start
  stop := max last.stop range.stop
  positive := last.positive
  ordered := by
    have := last.ordered
    simp only [UInt16.le_iff_toNat_le, UInt16.toNat_max] at *
    omega

@[simp]
theorem lo_extend (last range : PortRange) : (last.extend range).lo = last.lo := rfl

@[simp]
theorem hi_extend (last range : PortRange) :
    (last.extend range).hi = max last.hi range.hi :=
  UInt16.toNat_max _ _

end PortRange

namespace PortReservation

variable {ε : Type}

def parsePort (value term : Text) : Except (PortReservationError ε) UInt16 :=
  match Text.parseU16 value with
  | some port => .ok port
  | none => .error (.invalidReservedPorts term)

/-- One round of the loop of `parse_reserved_ranges`. -/
def parseTerm (term : Text) : Except (PortReservationError ε) PortRange := do
  match Text.splitOnce '-' term with
  | some (start, stop) => do
    let start ← parsePort start term
    let stop ← parsePort stop term
    PortRange.new start stop
  | none => do
    let port ← parsePort term term
    PortRange.new port port

/-- The terms the loop of `parse_reserved_ranges` does not skip. -/
def terms (text : Text) : List Text :=
  ((text.trim.splitOn ',').map Text.trim).filter (· ≠ [])

/-- One round of the loop of `normalize_ranges`, in 32 bits, where the sum fits. -/
def mergeRange (merged : List PortRange) (range : PortRange) : List PortRange :=
  match merged.getLast? with
  | some last =>
    if range.start.toNat ≤ last.stop.toNat + 1 then merged.dropLast ++ [last.extend range]
    else merged ++ [range]
  | none => merged ++ [range]

def normalizeRanges (ranges : List PortRange) : List PortRange :=
  (ranges.insertionSort fun a b => a.start ≤ b.start).foldl mergeRange []

def parseReservedRanges (text : Text) : Except (PortReservationError ε) (List PortRange) := do
  let ranges ← (terms text).mapM parseTerm
  return normalizeRanges ranges

def rangeContains (ranges : List PortRange) (required : PortRange) : Bool :=
  ranges.any fun range => range.start ≤ required.start && required.stop ≤ range.stop

/-- `read` is what the read of the file gave. -/
def ensureNatPortsReserved (first last : UInt16) (read : Except ε Text) :
    Except (PortReservationError ε) Unit := do
  let required ← PortRange.new first last
  let text ← read.mapError .io
  let current ← parseReservedRanges text
  if rangeContains current required then return ()
  else .error (.missingReservation required.start required.stop)

section Normalize

variable {ranges merged : List PortRange} {range : PortRange} {n : ℕ}

/-- The numbers of the ranges. -/
def Covered (ranges : List PortRange) (n : ℕ) : Prop :=
  ∃ range ∈ ranges, range.lo ≤ n ∧ n ≤ range.hi

theorem covered_append {others : List PortRange} :
    Covered (ranges ++ others) n ↔ Covered ranges n ∨ Covered others n := by
  simp only [Covered, List.mem_append, or_and_right, exists_or]

theorem covered_singleton : Covered [range] n ↔ range.lo ≤ n ∧ n ≤ range.hi := by
  simp [Covered]

theorem mergeRange_append (init : List PortRange) (last range : PortRange) :
    mergeRange (init ++ [last]) range =
      if range.lo ≤ last.hi + 1 then init ++ [last.extend range]
      else init ++ [last] ++ [range] := by
  simp [mergeRange, PortRange.lo, PortRange.hi]

/-- `merged` is what the loop has made of `ranges`. -/
structure Merged (ranges merged : List PortRange) : Prop where
  apart : Apart PortRange.lo PortRange.hi merged
  covered : ∀ n, Covered merged n ↔ Covered ranges n
  starts : ∀ r ∈ merged, ∃ r' ∈ ranges, r.lo = r'.lo

/-- A round of the merge, for a range that starts behind the earlier ones. -/
theorem Merged.mergeRange (h : Merged ranges merged) (hle : ∀ r ∈ ranges, r.lo ≤ range.lo) :
    Merged (ranges ++ [range]) (mergeRange merged range) := by
  have hstarts : ∀ r ∈ merged, r.lo ≤ range.lo := by
    intro r hr
    obtain ⟨r', hr', hlo⟩ := h.starts r hr
    rw [hlo]
    exact hle r' hr'
  have hkept : ∀ r ∈ merged, ∃ r' ∈ ranges ++ [range], r.lo = r'.lo := by
    intro r hr
    obtain ⟨r', hr', hlo⟩ := h.starts r hr
    exact ⟨r', List.mem_append_left _ hr', hlo⟩
  have hown : ∃ r' ∈ ranges ++ [range], range.lo = r'.lo := ⟨range, by simp, rfl⟩
  rcases List.eq_nil_or_concat' merged with rfl | ⟨init, last, rfl⟩
  · refine ⟨List.pairwise_singleton _ _, fun n => ?_, fun r hr => ?_⟩
    · rw [covered_append, ← h.covered n, ← covered_append]
      rfl
    · rw [List.mem_singleton.mp hr]
      exact hown
  · have hlast := hstarts last (by simp)
    obtain ⟨hinit, -, hgap⟩ := List.pairwise_append.mp h.apart
    have hbefore : ∀ r ∈ init, r.hi + 1 < last.lo := fun r hr => hgap r hr last (by simp)
    rw [mergeRange_append]
    split_ifs with hnear
    · -- the union of two ranges that touch is the extended one
      refine ⟨List.pairwise_append.mpr ⟨hinit, List.pairwise_singleton _ _, ?_⟩, fun n => ?_,
        fun r hr => ?_⟩
      · intro r hr r' hr'
        rw [List.mem_singleton.mp hr', PortRange.lo_extend]
        exact hbefore r hr
      · have hcov := h.covered n
        have horder := range.lo_le_hi
        simp only [covered_append, covered_singleton, PortRange.lo_extend,
          PortRange.hi_extend] at hcov ⊢
        rw [← hcov, or_assoc]
        refine or_congr_right ?_
        omega
      · rcases List.mem_append.mp hr with hr | hr
        · exact hkept r (by simp [hr])
        · rw [List.mem_singleton.mp hr, PortRange.lo_extend]
          exact hkept last (by simp)
    · refine ⟨List.pairwise_append.mpr ⟨h.apart, List.pairwise_singleton _ _, ?_⟩, fun n => ?_,
        fun r hr => ?_⟩
      · intro r hr r' hr'
        rw [List.mem_singleton.mp hr']
        rcases List.mem_append.mp hr with hr | hr
        · have hr := hbefore r hr
          omega
        · rw [List.mem_singleton.mp hr]
          omega
      · rw [covered_append, h.covered n, ← covered_append]
      · rcases List.mem_append.mp hr with hr | hr
        · exact hkept r hr
        · rw [List.mem_singleton.mp hr]
          exact hown

/-- The loop, along a list sorted by its starts. -/
theorem merged_foldl (h : ranges.Pairwise fun a b => a.lo ≤ b.lo) :
    Merged ranges (ranges.foldl PortReservation.mergeRange []) := by
  induction ranges using List.reverseRecOn with
  | nil => exact ⟨List.Pairwise.nil, fun n => Iff.rfl, fun r hr => by cases hr⟩
  | append_singleton ranges range ih =>
    obtain ⟨hranges, -, hle⟩ := List.pairwise_append.mp h
    rw [List.foldl_append]
    exact (ih hranges).mergeRange fun r hr => hle r hr range (by simp)

theorem normalizeRanges_apart (ranges : List PortRange) :
    Apart PortRange.lo PortRange.hi (normalizeRanges ranges) ∧
      ∀ n, Covered (normalizeRanges ranges) n ↔ Covered ranges n := by
  let le : PortRange → PortRange → Prop := fun a b => a.start ≤ b.start
  have : Std.Total le := ⟨fun a b => UInt16.le_total a.start b.start⟩
  have : IsTrans PortRange le := ⟨fun _ _ _ hab hbc => UInt16.le_trans hab hbc⟩
  have hsorted : (ranges.insertionSort le).Pairwise fun a b => a.lo ≤ b.lo :=
    (List.pairwise_insertionSort le ranges).imp fun hab => UInt16.le_iff_toNat_le.mp hab
  have hmerged := merged_foldl hsorted
  refine ⟨hmerged.apart, fun n => (hmerged.covered n).trans ?_⟩
  simp only [Covered, (List.perm_insertionSort le ranges).mem_iff]

theorem rangeContains_iff (required : PortRange) :
    rangeContains (normalizeRanges ranges) required ↔
      ∀ n, required.lo ≤ n → n ≤ required.hi → Covered ranges n := by
  obtain ⟨hapart, hcovered⟩ := normalizeRanges_apart ranges
  simp only [← hcovered]
  rw [show (∀ n, required.lo ≤ n → n ≤ required.hi → Covered (normalizeRanges ranges) n) ↔ _ from
    hapart.covers_iff required.lo_le_hi]
  simp [rangeContains, PortRange.lo, PortRange.hi, UInt16.le_iff_toNat_le]

end Normalize

section Texts

variable {text : Text} {ranges : List PortRange} {first last : UInt16}

/-- The text lists a port or range with this port. -/
def Listed (ε : Type) (text : Text) (port : UInt16) : Prop :=
  ∃ term ∈ terms text, ∃ range : PortRange,
    parseTerm (ε := ε) term = .ok range ∧ range.Contains port

theorem mem_of_mapM_ok {β γ δ : Type} {f : β → Except γ δ} {inputs : List β} {outputs : List δ}
    (h : inputs.mapM f = .ok outputs) (output : δ) :
    output ∈ outputs ↔ ∃ input ∈ inputs, f input = .ok output := by
  induction inputs generalizing outputs with
  | nil =>
    cases h
    simp
  | cons input inputs ih =>
    rw [List.mapM_cons] at h
    cases hfirst : f input with
    | error error =>
      rw [hfirst] at h
      cases h
    | ok first =>
      cases hrest : inputs.mapM f with
      | error error =>
        rw [hfirst, hrest] at h
        cases h
      | ok rest =>
        rw [hfirst, hrest] at h
        cases h
        simp only [List.mem_cons, ih hrest, exists_eq_or_imp, hfirst, Except.ok.injEq,
          eq_comm (a := output)]

theorem parseReservedRanges_eq_ok (h : parseReservedRanges (ε := ε) text = .ok ranges) :
    ∃ listed : List PortRange, ranges = normalizeRanges listed ∧
      ∀ port, Listed ε text port ↔ Covered listed port.toNat := by
  rw [parseReservedRanges] at h
  cases hlisted : (terms text).mapM (parseTerm (ε := ε)) with
  | error error =>
    rw [hlisted] at h
    cases h
  | ok listed =>
    rw [hlisted] at h
    cases h
    refine ⟨listed, rfl, fun port => ?_⟩
    simp only [Listed, Covered, mem_of_mapM_ok hlisted, PortRange.contains_iff]
    constructor
    · rintro ⟨term, hterm, range, hrange, hport⟩
      exact ⟨range, ⟨term, hterm, hrange⟩, hport⟩
    · rintro ⟨range, ⟨term, hterm, hrange⟩, hport⟩
      exact ⟨term, hterm, range, hrange, hport⟩

/-- The check of the NAT ports is exact, and the parsed ranges are the maximal ones. -/
theorem ports_reserved_iff (h : parseReservedRanges (ε := ε) text = .ok ranges)
    (hfirst : 0 < first) (hle : first ≤ last) :
    (ensureNatPortsReserved first last (.ok text : Except ε Text) = .ok () ↔
        ∀ port, first ≤ port → port ≤ last → Listed ε text port) ∧
      ranges.Pairwise (fun a b => a.stop.toNat + 1 < b.start.toNat) ∧
      ∀ port, (∃ range ∈ ranges, range.Contains port) ↔ Listed ε text port := by
  obtain ⟨listed, rfl, hlisted⟩ := parseReservedRanges_eq_ok h
  obtain ⟨hapart, hcovered⟩ := normalizeRanges_apart listed
  have hzero : first ≠ 0 := by
    rintro rfl
    cases hfirst
  let required : PortRange := ⟨first, last, hzero, hle⟩
  have hnew : PortRange.new (ε := ε) first last = .ok required := dif_pos ⟨hzero, hle⟩
  refine ⟨?_, hapart, fun port => ?_⟩
  · have hensure : ensureNatPortsReserved first last (.ok text : Except ε Text) =
        if rangeContains (normalizeRanges listed) required then .ok ()
        else .error (.missingReservation first last) := by
      rw [ensureNatPortsReserved, hnew]
      show (parseReservedRanges text >>= _) = _
      rw [h]
      rfl
    have hports : (∀ port, first ≤ port → port ≤ last → Listed ε text port) ↔
        ∀ n, required.lo ≤ n → n ≤ required.hi → Covered listed n := by
      simp only [hlisted, UInt16.le_iff_toNat_le]
      constructor
      · intro hall n hlo hhi
        have hn : (UInt16.ofNat n).toNat = n :=
          UInt16.toNat_ofNat_of_lt' (hhi.trans_lt last.toNat_lt)
        have hport := hall (.ofNat n)
        rw [hn] at hport
        exact hport hlo hhi
      · intro hall port hlo hhi
        exact hall port.toNat hlo hhi
    rw [hports, ← rangeContains_iff, hensure]
    split_ifs with hin <;> simp [hin]
  · rw [hlisted, ← hcovered]
    simp only [PortRange.contains_iff, Covered]

/-- Ranges that only together cover the ports 40000 to 40010. -/
def splitReservation : Text := "40010, 40000-40005,40006-40009,50000\n".toList

theorem ports_reserved_split :
    ensureNatPortsReserved 40000 40010 (.ok splitReservation : Except Empty Text) = .ok () ∧
      ∀ port, 40000 ≤ port → port ≤ 40010 → Listed Empty splitReservation port := by
  have hparse : parseReservedRanges (ε := Empty) splitReservation =
      .ok [⟨40000, 40010, by decide, by decide⟩, ⟨50000, 50000, by decide, by decide⟩] := by
    decide +kernel
  have hensure : ensureNatPortsReserved 40000 40010
      (.ok splitReservation : Except Empty Text) = .ok () := by
    decide +kernel
  exact ⟨hensure, (ports_reserved_iff hparse (by decide) (by decide)).1.mp hensure⟩

end Texts

end PortReservation

end NewProxy

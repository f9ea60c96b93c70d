import Mathlib.Data.List.TakeWhile
import Phantom.Database.Codec

namespace Phantom.Database

open Phantom.Lib

/-- The least byte string past those that begin with `start`: its last byte that is not the greatest, plus one. -/
def prefixUpperBound (start : Bytes) : Option Bytes :=
  match start.reverse.dropWhile (· = 0xFF) with
  | [] => none
  | byte :: before => some (before.reverse ++ [byte + 1])

section Scans

variable {V : Type}

def iterOptions (upper : Option Bytes) (map : BTreeMap Bytes V) : List (Bytes × V) :=
  map.entries.filter fun row => upper.all fun bound => decide (row.1 < bound)

/-- A scan forward starts at the prefix; a scan in reverse starts at the last row below the bound. -/
def iterPrefix (rev : Bool) (map : BTreeMap Bytes V) (start : Bytes) : List (Bytes × V) :=
  let rows := iterOptions (prefixUpperBound start) map
  (if rev then rows.reverse else rows.dropWhile fun row => decide (row.1 < start)).takeWhile
    fun row => decide (start <+: row.1)

section

variable (types : List Ty) (map : BTreeMap Bytes V) (start : List Component)

def streamPrefix :
    List (Option (List Component) × V) :=
  (iterPrefix false map (serialize start)).map fun row => (fromSlice types row.1, row.2)

def revStreamPrefix :
    List (Option (List Component) × V) :=
  (iterPrefix true map (serialize start)).map fun row => (fromSlice types row.1, row.2)

end

def delPrefix (map : BTreeMap Bytes V) (start : List Component) : BTreeMap Bytes V :=
  (iterPrefix false map (serialize start)).foldl (fun map row => map.erase row.1) map

end Scans

section Bounds

variable {start key bound : Bytes} {byte : UInt8}

theorem isPrefix_of_max (greatest : ∀ byte ∈ start, byte = 0xFF) (reached : ¬ key < start) : start <+: key := by
  induction start generalizing key with
  | nil => exact List.nil_prefix
  | cons byte start ih =>
    cases key with
    | nil => exact absurd (List.nil_lt_cons byte start) reached
    | cons other key =>
      have top : byte = 0xFF := greatest byte List.mem_cons_self
      have same : other = byte := by
        by_contra ne
        refine reached (List.cons_lt_cons_iff.mpr (.inl ?_))
        rw [UInt8.lt_iff_toNat_lt, top]
        have below := other.toNat_lt
        have apart : other.toNat ≠ (0xFF : UInt8).toNat := fun equal => ne (top ▸ UInt8.toNat_inj.mp equal)
        simp only [UInt8.reduceToNat] at apart ⊢
        omega
      rw [same] at reached ⊢
      refine List.cons_prefix_cons.mpr ⟨rfl, ih (fun byte mem => greatest byte (List.mem_cons_of_mem _ mem)) ?_⟩
      exact fun less => reached (List.cons_lt_cons_iff.mpr (.inr ⟨rfl, less⟩))

/-- Between `before ++ byte :: top`, where `top` is of greatest bytes, and `before ++ [byte + 1]` are the strings
    that begin
    with the first. -/
theorem isPrefix_iff_between {before top : Bytes} (greatest : ∀ byte ∈ top, byte = 0xFF) (small : byte ≠ 0xFF) :
    before ++ byte :: top <+: key ↔ ¬ key < before ++ byte :: top ∧ key < before ++ [byte + 1] := by
  have next : (byte + 1).toNat = byte.toNat + 1 := by
    have below := byte.toNat_lt
    have apart : byte.toNat ≠ (0xFF : UInt8).toNat := fun equal => small (UInt8.toNat_inj.mp equal)
    rw [UInt8.toNat_add]
    simp only [UInt8.reduceToNat] at apart ⊢
    omega
  induction before generalizing key with
  | nil =>
    cases key with
    | nil => simp
    | cons other key =>
      simp only [List.nil_append, List.cons_prefix_cons, List.cons_lt_cons_iff, List.not_lt_nil, and_false, or_false]
      constructor
      · rintro ⟨rfl, begins⟩
        refine ⟨?_, ?_⟩
        · rintro (less | ⟨_, less⟩)
          · exact lt_irrefl _ less
          · exact not_lt.mpr (le_of_isPrefix begins) less
        · rw [UInt8.lt_iff_toNat_lt, next]
          omega
      · rintro ⟨reached, less⟩
        rw [UInt8.lt_iff_toNat_lt, next] at less
        have same : byte = other := by
          refine UInt8.toNat_inj.mp (Nat.le_antisymm ?_ (by omega))
          exact Nat.le_of_not_lt fun smaller => reached (.inl (UInt8.lt_iff_toNat_lt.mpr smaller))
        exact ⟨same, isPrefix_of_max greatest fun smaller => reached (.inr ⟨same.symm, smaller⟩)⟩
  | cons first before ih =>
    cases key with
    | nil => simp
    | cons other key =>
      simp only [List.cons_append, List.cons_prefix_cons, List.cons_lt_cons_iff, ih]
      grind

theorem prefixUpperBound_cases (start : Bytes) : (prefixUpperBound start = none ∧ ∀ byte ∈ start, byte = 0xFF) ∨
    ∃ before byte top, start = before ++ byte :: top ∧ byte ≠ 0xFF ∧ (∀ byte ∈ top, byte = 0xFF) ∧
      prefixUpperBound start = some (before ++ [byte + 1]) := by
  have split : start.reverse.takeWhile (· = 0xFF) ++ start.reverse.dropWhile (· = 0xFF) = start.reverse :=
    List.takeWhile_append_dropWhile
  have top : ∀ byte ∈ start.reverse.takeWhile (· = 0xFF), byte = 0xFF := by
    intro byte mem
    simpa using List.mem_takeWhile_imp mem
  unfold prefixUpperBound
  cases rest : start.reverse.dropWhile (· = 0xFF) with
  | nil =>
    rw [rest, List.append_nil] at split
    rw [split] at top
    exact .inl ⟨rfl, fun byte mem => top byte (List.mem_reverse.mpr mem)⟩
  | cons byte before =>
    rw [rest] at split
    refine .inr ⟨before.reverse, byte, (start.reverse.takeWhile (· = 0xFF)).reverse, ?_, ?_, ?_, rfl⟩
    · simpa using (congrArg List.reverse split).symm
    · intro same
      have kept := List.head?_dropWhile_not (fun byte : UInt8 => decide (byte = 0xFF)) start.reverse
      simp [rest, same] at kept
    · exact fun byte mem => top byte (List.mem_reverse.mp mem)

theorem isPrefix_iff_bounds : start <+: key ↔
    ¬ key < start ∧ (prefixUpperBound start).all (fun bound => decide (key < bound)) = true := by
  rcases prefixUpperBound_cases start with ⟨none, greatest⟩ | ⟨before, byte, top, rfl, small, greatest, bound⟩
  · rw [none]
    simp only [Option.all_none, and_true]
    exact ⟨fun begins => not_lt.mpr (le_of_isPrefix begins), isPrefix_of_max greatest⟩
  · rw [bound, isPrefix_iff_between greatest small]
    simp

end Bounds

section Exact

variable {V : Type} {map : BTreeMap Bytes V} {start : Bytes}

theorem iterPrefix_forward : iterPrefix false map start = map.entries.filter fun row => decide (start <+: row.1) := by
  have dropped : (iterOptions (prefixUpperBound start) map).dropWhile (fun row => decide (row.1 < start)) =
      map.entries.filter fun row => decide (start <+: row.1) := by
    unfold iterOptions
    rw [dropWhile_eq_filter (map.sorted.filter _), List.filter_filter]
    · refine List.filter_congr fun row _ => ?_
      rw [Bool.eq_iff_iff]
      simp [isPrefix_iff_bounds]
    · intro row later less below
      exact decide_eq_true (lt_trans less (of_decide_eq_true below))
  simp only [iterPrefix, Bool.false_eq_true, if_false]
  rw [dropped, List.takeWhile_eq_self_iff]
  intro row mem
  exact (List.mem_filter.mp mem).2

theorem iterPrefix_reverse :
    iterPrefix true map start = (map.entries.filter fun row => decide (start <+: row.1)).reverse := by
  have sorted := List.pairwise_reverse.mpr (map.sorted.filter fun row => (prefixUpperBound start).all fun bound =>
    decide (row.1 < bound))
  simp only [iterPrefix, if_true, iterOptions]
  rw [takeWhile_eq_filter sorted, List.filter_reverse, List.filter_filter]
  · congr 1
    refine List.filter_congr fun row _ => ?_
    by_cases begins : start <+: row.1
    · simp [begins, (isPrefix_iff_bounds.mp begins).2]
    · simp [begins]
  · intro row mem later _ less begins
    have bounded := (List.mem_filter.mp (List.mem_reverse.mp mem)).2
    have reached := (isPrefix_iff_bounds.mp (of_decide_eq_true begins)).1
    exact decide_eq_true (isPrefix_iff_bounds.mpr ⟨fun below => reached (lt_trans less below), bounded⟩)

theorem entries_eraseAll (rows : List (Bytes × V)) : (rows.foldl (fun map row => map.erase row.1) map).entries =
    map.entries.filter fun row => decide (row.1 ∉ rows.map Prod.fst) := by
  induction rows generalizing map with
  | nil => simp
  | cons row rows ih =>
    rw [List.foldl_cons, ih, BTreeMap.erase, List.filter_filter]
    refine List.filter_congr fun other _ => ?_
    rw [List.map_cons, ← Bool.decide_and, decide_eq_decide, List.mem_cons, not_or, and_comm]

variable {tuple : List Component}

theorem serialize_cons_of_ne {component : Component} (filled : tuple ≠ []) :
    serialize (component :: tuple) = component.bytes ++ SEP :: serialize tuple := by
  cases tuple with
  | nil => exact absurd rfl filled
  | cons other tuple =>
    rw [serialize_cons, serialize_cons]
    rfl

theorem sep_not_mem_str (text : List Char) : SEP ∉ (Component.str text).bytes := separator_not_mem_utf8 text

theorem serialize_isPrefix_iff {names : List (List Char)} (shorter : names.length < tuple.length)
    (leading : List.replicate names.length Ty.str <+: tuple.map Component.ty) :
    serialize (names.map .str ++ [.interfix]) <+: serialize tuple ↔ tuple.take names.length = names.map .str := by
  induction names generalizing tuple with
  | nil => simp [serialize_cons, Component.bytes, separated]
  | cons name names ih =>
    cases tuple with
    | nil => cases shorter
    | cons component tuple =>
      simp only [List.length_cons, List.replicate_succ, List.map_cons, List.cons_prefix_cons] at leading
      obtain ⟨text, rfl⟩ : ∃ text, component = .str text := by
        cases component with
        | str text => exact ⟨text, rfl⟩
        | _ => cases leading.1
      have inner := ih (Nat.lt_of_succ_lt_succ shorter) leading.2
      have filled : tuple ≠ [] := List.ne_nil_of_length_pos (Nat.zero_lt_of_lt (Nat.lt_of_succ_lt_succ shorter))
      rw [List.map_cons, List.cons_append, serialize_cons_of_ne (by simp), serialize_cons_of_ne filled,
        append_cons_isPrefix_iff (sep_not_mem_str name) (sep_not_mem_str text), inner]
      simp [Component.bytes, utf8_injective.eq_iff, eq_comm]

/-- Whatever map of keys of one type, and whatever leading texts of it, fewer than its components: the scans give the rows
    that begin with them, in the order of their keys and in the reverse, and the deletion removes those. -/
theorem prefix_scans_exact {types : List Ty} {rows : List (List Component × V)} {names : List (List Char)}
    (keys : map.entries = rows.map fun row => (serialize row.1, row.2))
    (typed : ∀ row ∈ rows, row.1.map Component.ty = types ∧ ∀ component ∈ row.1, component.Valid)
    (leading : List.replicate names.length Ty.str <+: types) (shorter : names.length < types.length)
    (several : 2 ≤ types.length) :
    streamPrefix types map (names.map .str ++ [.interfix]) =
      (rows.filter fun row => row.1.take names.length = names.map .str).map (fun row => (some row.1, row.2)) ∧
    revStreamPrefix types map (names.map .str ++ [.interfix]) =
      ((rows.filter fun row => row.1.take names.length = names.map .str).map fun row => (some row.1, row.2)).reverse ∧
    (delPrefix map (names.map .str ++ [.interfix])).entries =
      (rows.filter fun row => row.1.take names.length ≠ names.map .str).map (fun row => (serialize row.1, row.2)) ∧
    rows.Pairwise fun row later => serialize row.1 < serialize later.1 := by
  have begins : ∀ row ∈ rows, (serialize (names.map .str ++ [.interfix]) <+: serialize row.1 ↔
      row.1.take names.length = names.map .str) := by
    intro row member
    obtain ⟨rfl, _⟩ := typed row member
    exact serialize_isPrefix_iff (by rwa [List.length_map] at shorter) leading
  have matching : map.entries.filter (fun row => decide (serialize (names.map .str ++ [.interfix]) <+: row.1)) =
      (rows.filter fun row => row.1.take names.length = names.map .str).map fun row => (serialize row.1, row.2) := by
    rw [keys, List.filter_map]
    exact congrArg _ (List.filter_congr fun row member => by simp [begins row member])
  have decoded : ((rows.filter fun row => row.1.take names.length = names.map .str).map fun row =>
    (serialize row.1, row.2)).map
      (fun row => (fromSlice types row.1, row.2)) =
      (rows.filter fun row => row.1.take names.length = names.map .str).map fun row => (some row.1, row.2) := by
    rw [List.map_map]
    refine List.map_congr_left fun row member => ?_
    obtain ⟨typed, valid⟩ := typed row (List.mem_filter.mp member).1
    have read := fromSlice_serialize (by rw [← typed, List.length_map] at several; exact several) valid
    rw [typed] at read
    simp [read]
  refine ⟨?_, ?_, ?_, ?_⟩
  · rw [streamPrefix, iterPrefix_forward, matching, decoded]
  · rw [revStreamPrefix, iterPrefix_reverse, matching, List.map_reverse, decoded]
  · rw [delPrefix, entries_eraseAll, iterPrefix_forward]
    have removed : map.entries.filter (fun row => decide (row.1 ∉
        (map.entries.filter fun row => decide (serialize (names.map .str ++ [.interfix]) <+: row.1)).map Prod.fst)) =
        map.entries.filter fun row => decide (¬ serialize (names.map .str ++ [.interfix]) <+: row.1) := by
      refine List.filter_congr fun row member => ?_
      rw [decide_eq_decide, not_iff_not, List.mem_map]
      constructor
      · rintro ⟨other, found, same⟩
        rw [← same]
        exact of_decide_eq_true (List.mem_filter.mp found).2
      · exact fun starts => ⟨row, List.mem_filter.mpr ⟨member, decide_eq_true starts⟩, rfl⟩
    rw [removed, keys, List.filter_map]
    exact congrArg _ (List.filter_congr fun row member => by simp [begins row member])
  · have sorted := map.sorted
    rw [keys, List.pairwise_map] at sorted
    exact sorted

end Exact

def pairs : BTreeMap Bytes ℕ :=
  ⟨[(serialize [.str ['a'], .u64 3], 0), (serialize [.str ['a'], .u64 7], 1),
  (serialize [.str ['b'], .u64 3], 2)], by decide +kernel⟩

theorem prefix_scans_exact_of_pairs : streamPrefix [.str, .u64] pairs [.str ['a'], .interfix] =
    [(some [.str ['a'], .u64 3], 0), (some [.str ['a'], .u64 7], 1)] := by
  refine (@prefix_scans_exact _ pairs _ [([.str ['a'], .u64 3], 0), ([.str ['a'], .u64 7], 1), ([.str ['b'], .u64 3], 2)]
    [['a']] rfl ?_ (by decide) (by decide) (by decide)).1
  simp only [List.forall_mem_cons]
  have none := List.forall_mem_nil Component.Valid
  exact ⟨⟨rfl, trivial, trivial, none⟩, ⟨rfl, trivial, trivial, none⟩, ⟨rfl, trivial, trivial, none⟩,
    List.forall_mem_nil _⟩

/-- Where the texts are all the components, the row of the key is left out: nothing follows its last text. -/
theorem whole_key_left_out : streamPrefix [.str, .str] (BTreeMap.empty.insert (serialize [.str ['a'], .str ['b']]) 0)
      [.str ['a'], .str ['b'], .interfix] = [] ∧
    fromSlice [.str, .str] (serialize [.str ['a'], .str ['b']]) = some [.str ['a'], .str ['b']] :=
  ⟨by decide +kernel, @fromSlice_serialize [.str ['a'], .str ['b']] (by decide)
    (List.forall_mem_cons.mpr ⟨trivial, List.forall_mem_singleton.mpr trivial⟩)⟩

end Phantom.Database

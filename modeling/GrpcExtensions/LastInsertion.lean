import Mathlib.Tactic.Common

/-!
# Maps built by insertion

A map that has been filled by a list of insertions gives, for every key, the
value that was inserted last under it.  The fact needs nothing of the map but
its law of lookup behind one insertion; hash maps and ordered maps follow.
-/

universe u v w x

namespace LastInsertion

variable {K : Type u} {V : Type v} {M : Type w} {T : Type x}

/-- The value that was inserted last under this key. -/
def lastValue [BEq K] (key : K) (entries : List (K × V)) : Option V :=
  entries.reverse.lookup key

theorem lastValue_map
    [BEq K] {W : Type x} (f : V → W) (key : K) (entries : List (K × V)) :
    lastValue key (entries.map fun entry => (entry.1, f entry.2)) =
      (lastValue key entries).map f := by
  unfold lastValue
  rw [← List.map_reverse]
  induction entries.reverse with
  | nil => rfl
  | cons entry entries ih =>
      rcases entry with ⟨other, value⟩
      cases hkey : key == other <;>
        simp [List.lookup_cons, hkey, ih]

theorem lookup_foldl_insert
    [BEq K] [EquivBEq K] (get : M → K → Option V) {insert : M → K → V → M}
    (hinsert : ∀ m key value other, get (insert m key value) other =
      if key == other then some value else get m other)
    (entry : T → K × V) (items : List T) (m : M) (key : K) :
    get (items.foldl (fun m item =>
        insert m (entry item).1 (entry item).2) m) key =
      (lastValue key (items.map entry)).or (get m key) := by
  induction items generalizing m with
  | nil => simp [lastValue]
  | cons item items ih =>
      rw [List.foldl_cons, ih, hinsert, List.map_cons, lastValue, lastValue,
        List.reverse_cons, List.lookup_append, Option.or_assoc]
      congr 1
      rcases entry item with ⟨inserted, value⟩
      dsimp only
      rw [List.lookup_cons, BEq.comm (a := key)]
      cases inserted == key <;> rfl

theorem hashMap_getElem?
    [BEq K] [Hashable K] [EquivBEq K] [LawfulHashable K]
    (entry : T → K × V) (items : List T) (key : K) :
    (items.foldl (fun m item => m.insert (entry item).1 (entry item).2)
        (∅ : Std.HashMap K V))[key]? = lastValue key (items.map entry) := by
  have hlookup := lookup_foldl_insert
    (fun (m : Std.HashMap K V) key => m[key]?)
    (fun _ _ _ _ => Std.HashMap.getElem?_insert) entry items ∅ key
  rw [Std.HashMap.getElem?_empty, Option.or_none] at hlookup
  exact hlookup

theorem treeMap_getElem?
    [BEq K] [EquivBEq K] [Ord K] [Std.TransOrd K] [Std.LawfulBEqOrd K]
    (entry : T → K × V) (items : List T) (key : K) :
    (items.foldl (fun m item => m.insert (entry item).1 (entry item).2)
        (∅ : Std.TreeMap K V))[key]? = lastValue key (items.map entry) := by
  have hinsert : ∀ (m : Std.TreeMap K V) key value other,
      (m.insert key value)[other]? =
        if key == other then some value else m[other]? := by
    intro m key value other
    rw [Std.TreeMap.getElem?_insert]
    by_cases hkey : compare key other = .eq
    · rw [if_pos hkey, if_pos (Std.LawfulBEqOrd.compare_eq_iff_beq.mp hkey)]
    · rw [if_neg hkey,
        if_neg (fun heq => hkey (Std.LawfulBEqOrd.compare_eq_iff_beq.mpr heq))]
  have hlookup := lookup_foldl_insert
    (fun (m : Std.TreeMap K V) key => m[key]?) hinsert entry items ∅ key
  rw [Std.TreeMap.getElem?_emptyc, Option.or_none] at hlookup
  exact hlookup

section Distinct

variable [BEq K] [LawfulBEq K] {entries : List (K × V)}

/-- No key stands twice. -/
def DistinctKeys (entries : List (K × V)) : Prop :=
  entries.Pairwise fun a b => (a.1 == b.1) = false

theorem lastValue_eq_some_iff
    (hdistinct : DistinctKeys entries) {key : K} {value : V} :
    lastValue key entries = some value ↔ (key, value) ∈ entries := by
  unfold lastValue
  rw [List.lookup_eq_some_iff, ← List.mem_reverse]
  constructor
  · rintro ⟨front, back, hsplit, _⟩
    rw [hsplit]
    exact List.mem_append_right _ List.mem_cons_self
  · intro hmem
    rcases List.append_of_mem hmem with ⟨front, back, hsplit⟩
    have hreverse := List.pairwise_reverse.mpr hdistinct
    rw [hsplit, List.pairwise_append] at hreverse
    refine ⟨front, back, hsplit, ?_⟩
    intro entry hentry
    have hne := hreverse.2.2 entry hentry (key, value) List.mem_cons_self
    simpa using hne

/-- With entries missing at the end, some key is not found. -/
theorem lastValue_prefix_iff
    (hdistinct : DistinctKeys entries) {front : List (K × V)}
    (hinitial : front <+: entries) :
    (∀ key, lastValue key front = lastValue key entries) ↔
      front = entries := by
  constructor
  · intro hsame
    rcases hinitial with ⟨back, rfl⟩
    cases back with
    | nil => exact (List.append_nil front).symm
    | cons entry back =>
        have hmem : (entry.1, entry.2) ∈ front ++ entry :: back := by simp
        have hfound := (lastValue_eq_some_iff hdistinct).mpr hmem
        have hparts := List.pairwise_append.mp hdistinct
        rw [← hsame, lastValue_eq_some_iff hparts.1] at hfound
        have hne := hparts.2.2 _ hfound entry List.mem_cons_self
        simp at hne
  · rintro rfl key
    rfl

end Distinct

end LastInsertion

import Mathlib

/-!
# Caches whose entries expire

A cache keeps what was fetched under a key for a time to live. Several processes may fetch one key at once, and the one
that ends last overwrites the others, so a cache can go back to an older value; but what it serves was always brought
by a fetch (`FilledBy`), and one that was stored less than the time to live ago (`FilledBy.get`). When no fetch takes
longer than `slowest`, whatever holds of all values fetched from some time on holds of all values served from `slowest`
and the time to live later on (`Serves.begun_after`).
-/

namespace Washing

variable {K V τ : Type}

/-- A value in a cache. -/
structure Cached (V τ : Type) where
  value : V
  expires : τ

/-- A fetch that has ended: what it brought under which key, and when. -/
structure Fetch (K V τ : Type) where
  key : K
  value : V
  begun : τ
  stored : τ

/-- A cache, as what it holds under each key. -/
abbrev TtlCache (K V τ : Type) := K → Option (Cached V τ)

namespace TtlCache

/-- Nothing is cached. -/
def empty : TtlCache K V τ := fun _ => none

section Store

variable [DecidableEq K] [Add τ]

/-- Keep what was fetched. -/
def store (cache : TtlCache K V τ) (ttl : τ) (f : Fetch K V τ) : TtlCache K V τ :=
  Function.update cache f.key (some ⟨f.value, f.stored + ttl⟩)

theorem store_self (cache : TtlCache K V τ) (ttl : τ) (f : Fetch K V τ) :
    cache.store ttl f f.key = some ⟨f.value, f.stored + ttl⟩ := Function.update_self ..

theorem store_of_ne (cache : TtlCache K V τ) (ttl : τ) {f : Fetch K V τ} {k : K} (hk : k ≠ f.key) :
    cache.store ttl f k = cache k := Function.update_of_ne hk ..

end Store

section Get

variable [LinearOrder τ]

/-- The value under a key, unless it has expired. -/
def get (cache : TtlCache K V τ) (now : τ) (k : K) : Option V :=
  (cache k).bind fun c => if now < c.expires then some c.value else none

theorem get_eq_some {cache : TtlCache K V τ} {now : τ} {k : K} {v : V} :
    cache.get now k = some v ↔ ∃ c, cache k = some c ∧ now < c.expires ∧ c.value = v := by
  simp only [get, Option.bind_eq_some_iff, Option.ite_none_right_eq_some, Option.some.injEq]

end Get

/-! ## What is served -/

/-- The fetch brought the value under the key, and has not expired. -/
structure Serves [Add τ] [LT τ] (ttl now : τ) (k : K) (v : V) (f : Fetch K V τ) : Prop where
  key : f.key = k
  value : f.value = v
  fresh : now < f.stored + ttl

/-- Everything in the cache was brought by one of the fetches. -/
def FilledBy [Add τ] (cache : TtlCache K V τ) (ttl : τ) (fetches : List (Fetch K V τ)) : Prop :=
  ∀ k c, cache k = some c → ∃ f ∈ fetches, f.key = k ∧ f.value = c.value ∧ f.stored + ttl = c.expires

theorem filledBy_empty [Add τ] (ttl : τ) : FilledBy (empty : TtlCache K V τ) ttl [] := by
  intro k c hc
  cases hc

theorem FilledBy.store [DecidableEq K] [Add τ] {cache : TtlCache K V τ} {ttl : τ} {fetches : List (Fetch K V τ)}
    (h : cache.FilledBy ttl fetches) (f : Fetch K V τ) : (cache.store ttl f).FilledBy ttl (f :: fetches) := by
  intro k c hc
  by_cases hk : k = f.key
  · subst hk
    rw [store_self] at hc
    cases hc
    exact ⟨f, List.mem_cons_self, rfl, rfl, rfl⟩
  · rw [store_of_ne _ _ hk] at hc
    obtain ⟨g, hg, hserves⟩ := h k c hc
    exact ⟨g, List.mem_cons_of_mem f hg, hserves⟩

theorem FilledBy.get [Add τ] [LinearOrder τ] {cache : TtlCache K V τ} {ttl now : τ} {fetches : List (Fetch K V τ)}
    (h : cache.FilledBy ttl fetches) {k : K} {v : V} (hget : cache.get now k = some v) :
    ∃ f ∈ fetches, Serves ttl now k v f := by
  obtain ⟨c, hc, hfresh, rfl⟩ := get_eq_some.mp hget
  obtain ⟨f, hf, hkey, hvalue, hexpires⟩ := h k c hc
  exact ⟨f, hf, hkey, hvalue, hexpires ▸ hfresh⟩

section Ordered

variable [AddCommGroup τ] [LinearOrder τ] [IsOrderedAddMonoid τ]

/-- What has just been fetched is served. -/
theorem serves_fetched {ttl : τ} (httl : 0 < ttl) (f : Fetch K V τ) : Serves ttl f.stored f.key f.value f :=
  ⟨rfl, rfl, lt_add_of_pos_right f.stored httl⟩

/-- What is served late enough was fetched after a given time. -/
theorem Serves.begun_after {ttl now since slowest : τ} {k : K} {v : V} {f : Fetch K V τ} (h : Serves ttl now k v f)
    (hslowest : f.stored ≤ f.begun + slowest) (hlate : since + slowest + ttl ≤ now) : since ≤ f.begun := by
  by_contra hbefore
  have hbegun : f.begun < since := not_le.mp hbefore
  have hexpired : f.stored + ttl < now :=
    calc f.stored + ttl ≤ f.begun + slowest + ttl := by gcongr
      _ < since + slowest + ttl := by gcongr
      _ ≤ now := hlate
  exact absurd h.fresh (not_lt.mpr hexpired.le)

end Ordered

end TtlCache

end Washing

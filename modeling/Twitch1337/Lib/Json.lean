import Mathlib.Data.List.Sort

/-!
# JSON values

A value, and the paths into it: the items of its arrays and the entries of its objects. What a value is at the ends of all paths is
all there is to it. To prune a value drops the entries of some keys at every level and rewrites its texts.
-/

namespace Json

/-- A value. A number is its text, and an object has its entries in a list. -/
inductive Value where
  | null
  | bool (b : Bool)
  | number (text : String)
  | string (text : String)
  | array (items : List Value)
  | object (entries : List (String × Value))

/-- A step into a value. -/
inductive Step where
  | item (i : Nat)
  | entry (key : String)

/-- What a value is without what is in it. -/
inductive Node where
  | null
  | bool (b : Bool)
  | number (text : String)
  | string (text : String)
  | array (length : Nat)
  | object (keys : List String)

namespace Value

/-- What a value is, without what is in it. -/
def node : Value → Node
  | null => .null
  | bool b => .bool b
  | number text => .number text
  | string text => .string text
  | array items => .array items.length
  | object entries => .object (entries.map (·.1))

/-- What is one step into a value. -/
def step : Step → Value → Option Value
  | .item i, array items => items[i]?
  | .entry key, object entries => entries.lookup key
  | _, _ => none

/-- What is at the end of a path. -/
def follow : List Step → Value → Option Value
  | [], v => some v
  | s :: path, v => (v.step s).bind (follow path)

variable (drops : String → Bool) (rewrite : String → String)

mutual

/-- A value without the entries of some keys at any level, and with its texts rewritten. -/
def prune : Value → Value
  | null => null
  | bool b => bool b
  | number text => number text
  | string text => string (rewrite text)
  | array items => array (pruneItems items)
  | object entries => object (pruneEntries entries)

/-- Each item is pruned. -/
def pruneItems : List Value → List Value
  | [] => []
  | v :: items => prune v :: pruneItems items

/-- Entries are left out by their keys, and the others are pruned. -/
def pruneEntries : List (String × Value) → List (String × Value)
  | [] => []
  | (key, v) :: entries => if drops key then pruneEntries entries else (key, prune v) :: pruneEntries entries

end

end Value

/-- A step to an entry that is dropped. -/
def Step.isDropped (drops : String → Bool) : Step → Bool
  | item _ => false
  | entry key => drops key

/-- The same of a node. -/
def Node.prune (drops : String → Bool) (rewrite : String → String) : Node → Node
  | string text => .string (rewrite text)
  | object keys => .object (keys.filter fun key => !drops key)
  | node => node

namespace Value

mutual

/-- The entries of every object are in the order of their keys, and no key is in an object twice. -/
def InOrder : Value → Prop
  | array items => ItemsInOrder items
  | object entries => (entries.map (·.1)).Pairwise (· < ·) ∧ EntriesInOrder entries
  | _ => True

/-- Each item is in order. -/
def ItemsInOrder : List Value → Prop
  | [] => True
  | v :: items => InOrder v ∧ ItemsInOrder items

/-- Each entry is in order. -/
def EntriesInOrder : List (String × Value) → Prop
  | [] => True
  | (_, v) :: entries => InOrder v ∧ EntriesInOrder entries

end

variable {drops : String → Bool} {rewrite : String → String}

/-- Items are pruned one by one. -/
theorem pruneItems_eq (items : List Value) : pruneItems drops rewrite items = items.map (prune drops rewrite) := by
  induction items with
  | nil => rfl
  | cons v items ih => rw [pruneItems, ih, List.map_cons]

/-- Entries are pruned one by one, after those that are dropped were left out. -/
theorem pruneEntries_eq (entries : List (String × Value)) :
    pruneEntries drops rewrite entries = (entries.filter fun e => !drops e.1).map fun e => (e.1, prune drops rewrite e.2) := by
  induction entries with
  | nil => rfl
  | cons e entries ih =>
    obtain ⟨key, v⟩ := e
    rw [pruneEntries]
    cases hkey : drops key <;> simp [hkey, ih]

/-- The keys that are left. -/
theorem keys_pruneEntries (entries : List (String × Value)) :
    (pruneEntries drops rewrite entries).map (·.1) = (entries.map (·.1)).filter fun key => !drops key := by
  rw [pruneEntries_eq, List.map_map, List.filter_map]
  rfl

/-- What is found under a key is pruned, or was left out. -/
theorem lookup_pruneEntries (key : String) (entries : List (String × Value)) :
    (pruneEntries drops rewrite entries).lookup key =
      if drops key then none else (entries.lookup key).map (prune drops rewrite) := by
  induction entries with
  | nil => simp [pruneEntries]
  | cons e entries ih =>
    obtain ⟨k, v⟩ := e
    rw [pruneEntries]
    by_cases hk : key = k
    · subst hk
      cases hkey : drops key <;> simp [hkey, ih]
    · have hne : (key == k) = false := beq_false_of_ne hk
      cases hkey : drops k <;> simp [ih, List.lookup_cons, hne]

/-! ## Paths -/

/-- The node of what is pruned is pruned. -/
theorem node_prune (v : Value) : (v.prune drops rewrite).node = v.node.prune drops rewrite := by
  cases v with
  | array items => exact congrArg Node.array ((congrArg List.length (pruneItems_eq items)).trans (List.length_map _))
  | object entries => exact congrArg Node.object (keys_pruneEntries entries)
  | _ => rfl

/-- A step into what is pruned leads to what is pruned, or nowhere. -/
theorem step_prune (s : Step) (v : Value) :
    (v.prune drops rewrite).step s = if s.isDropped drops then none else (v.step s).map (prune drops rewrite) := by
  cases s with
  | item i =>
    cases v with
    | array items =>
      rw [prune, step, pruneItems_eq, List.getElem?_map]
      rfl
    | _ => rfl
  | entry key =>
    cases v with
    | object entries =>
      rw [prune, step, lookup_pruneEntries]
      rfl
    | _ => exact (ite_self none).symm

/-- At the end of a path is what was there, pruned, unless the path goes through an entry that is dropped. -/
theorem follow_prune (path : List Step) (v : Value) :
    (v.prune drops rewrite).follow path =
      if path.any (·.isDropped drops) then none else (v.follow path).map (prune drops rewrite) := by
  induction path generalizing v with
  | nil => rfl
  | cons s path ih =>
    rw [follow, step_prune, follow, List.any_cons]
    cases hs : s.isDropped drops with
    | true => rfl
    | false =>
      rw [if_neg Bool.false_ne_true, Bool.false_or]
      cases v.step s with
      | none => exact (ite_self none).symm
      | some w => exact ih w

/-! ## Pruning twice -/

mutual

theorem prune_prune (h : ∀ text, rewrite (rewrite text) = rewrite text) :
    (v : Value) → (v.prune drops rewrite).prune drops rewrite = v.prune drops rewrite
  | null => rfl
  | bool _ => rfl
  | number _ => rfl
  | string text => congrArg string (h text)
  | array items => congrArg array (pruneItems_pruneItems h items)
  | object entries => congrArg object (pruneEntries_pruneEntries h entries)

theorem pruneItems_pruneItems (h : ∀ text, rewrite (rewrite text) = rewrite text) :
    (items : List Value) → pruneItems drops rewrite (pruneItems drops rewrite items) = pruneItems drops rewrite items
  | [] => rfl
  | v :: items => congrArg₂ List.cons (prune_prune h v) (pruneItems_pruneItems h items)

theorem pruneEntries_pruneEntries (h : ∀ text, rewrite (rewrite text) = rewrite text) :
    (entries : List (String × Value)) →
      pruneEntries drops rewrite (pruneEntries drops rewrite entries) = pruneEntries drops rewrite entries
  | [] => rfl
  | (key, v) :: entries => by
    rw [pruneEntries]
    by_cases hkey : drops key = true
    · rw [if_pos hkey]
      exact pruneEntries_pruneEntries h entries
    · rw [if_neg hkey, pruneEntries, if_neg hkey, prune_prune h v, pruneEntries_pruneEntries h entries]

end

/-! ## Objects -/

mutual

/-- What is pruned stays in order. -/
theorem InOrder.prune : (v : Value) → InOrder v → InOrder (v.prune drops rewrite)
  | null, h => h
  | bool _, h => h
  | number _, h => h
  | string _, _ => trivial
  | array items, h => ItemsInOrder.prune items h
  | object entries, h => by
    refine ⟨?_, EntriesInOrder.prune entries h.2⟩
    rw [keys_pruneEntries]
    exact h.1.filter _

theorem ItemsInOrder.prune : (items : List Value) → ItemsInOrder items → ItemsInOrder (pruneItems drops rewrite items)
  | [], h => h
  | v :: items, h => ⟨InOrder.prune v h.1, ItemsInOrder.prune items h.2⟩

theorem EntriesInOrder.prune : (entries : List (String × Value)) → EntriesInOrder entries →
    EntriesInOrder (pruneEntries drops rewrite entries)
  | [], h => h
  | (key, v) :: entries, h => by
    rw [pruneEntries]
    by_cases hkey : drops key = true
    · rw [if_pos hkey]
      exact EntriesInOrder.prune entries h.2
    · rw [if_neg hkey]
      exact ⟨InOrder.prune v h.1, EntriesInOrder.prune entries h.2⟩

end

end Value

end Json

import Mathlib.Algebra.Ring.Int.Defs
import Mathlib.Algebra.Ring.Nat
import Mathlib.Data.List.Nodup
import Mathlib.Data.List.Sort
import Mathlib.Tactic.Common

/-!
# Statements of a relational server

What a client relies on when it talks to the server in single statements: text without NUL
characters, signed 64-bit integers, and `INSERT … ON CONFLICT (k) DO NOTHING` into a table with a
primary key and with a unique index on `k`.  A statement that fails leaves the table as it was.
-/

namespace Shardd.Postgres

/-- Why the server refuses a statement. -/
inductive StatementError
  | characterNotInRepertoire
  | checkViolation
  | uniqueViolation
  deriving DecidableEq, Repr

/-! ## Values -/

/-- No character of the text is NUL. -/
def NulFree (s : String) : Prop := Char.ofNat 0 ∉ s.toList

instance : DecidablePred NulFree := fun _ => inferInstanceAs (Decidable (¬ _))

/-- A value of type `TEXT`. -/
abbrev Text := {s : String // NulFree s}

def bindText (s : String) : Except StatementError Text :=
  if h : NulFree s then .ok ⟨s, h⟩ else .error .characterNotInRepertoire

theorem bindText_of_nulFree {s : String} (h : NulFree s) : bindText s = .ok ⟨s, h⟩ :=
  dif_pos h

theorem bindText_of_not_nulFree {s : String} (h : ¬ NulFree s) :
    bindText s = .error .characterNotInRepertoire :=
  dif_neg h

/-- A number bound as a `BIGINT`, through a cast to `i64`. -/
def bindBigint (n : ℕ) : Int64 := Int64.ofNat n

/-- The number that is read back, through a cast to `u64`. -/
def readBigint (x : Int64) : ℕ := x.toUInt64.toNat

theorem readBigint_bindBigint {n : ℕ} (h : n < 2 ^ 64) : readBigint (bindBigint n) = n := by
  rw [readBigint, bindBigint, Int64.toUInt64_ofNat', UInt64.toNat_ofNat_of_lt' h]

theorem bindBigint_le_iff {m n : ℕ} (hm : m < 2 ^ 63) (hn : n < 2 ^ 63) :
    bindBigint m ≤ bindBigint n ↔ m ≤ n := by
  rw [Int64.le_iff_toInt_le, bindBigint, bindBigint, Int64.toInt_ofNat_of_lt hm,
    Int64.toInt_ofNat_of_lt hn, Int.ofNat_le]

theorem bindBigint_lt_iff {m n : ℕ} (hm : m < 2 ^ 63) (hn : n < 2 ^ 63) :
    bindBigint m < bindBigint n ↔ m < n := by
  rw [Int64.lt_iff_toInt_lt, bindBigint, bindBigint, Int64.toInt_ofNat_of_lt hm,
    Int64.toInt_ofNat_of_lt hn, Int.ofNat_lt]

/-- From `2^63` on the numbers turn negative. -/
theorem toInt_bindBigint {n : ℕ} (h : n < 2 ^ 64) :
    (bindBigint n).toInt = if n < 2 ^ 63 then (n : ℤ) else n - 2 ^ 64 := by
  have hsize : ((Int64.size : ℕ) : ℤ) = 2 ^ 64 := by decide
  rw [bindBigint, Int64.toInt_ofNat', Int.bmod_def, hsize]
  split_ifs <;> omega

/-- A range is kept unless just its end turns negative. -/
theorem bindBigint_between_iff {a b n : ℕ} (hab : a ≤ b) (hb : b < 2 ^ 64) (hn : n < 2 ^ 64)
    (hsign : ¬ (a < 2 ^ 63 ∧ 2 ^ 63 ≤ b)) :
    bindBigint a ≤ bindBigint n ∧ bindBigint n ≤ bindBigint b ↔ a ≤ n ∧ n ≤ b := by
  rw [Int64.le_iff_toInt_le, Int64.le_iff_toInt_le, toInt_bindBigint (hab.trans_lt hb),
    toInt_bindBigint hn, toInt_bindBigint hb]
  split_ifs <;> omega

/-- A range of which just the end turns negative is empty. -/
theorem not_bindBigint_between {a b : ℕ} (ha : a < 2 ^ 63) (hb : 2 ^ 63 ≤ b) (hb' : b < 2 ^ 64)
    (x : Int64) : ¬ (bindBigint a ≤ x ∧ x ≤ bindBigint b) := by
  rw [Int64.le_iff_toInt_le, Int64.le_iff_toInt_le, toInt_bindBigint (ha.trans (by decide)),
    toInt_bindBigint hb', if_pos ha, if_neg (by omega)]
  omega

/-! ## Looking rows up -/

section

variable {ρ κ : Type} [DecidableEq κ] {f : ρ → κ} {rows : List ρ} {k : κ}

theorem find?_eq_none_of_notMem (h : k ∉ rows.map f) : (rows.find? fun y => f y = k) = none :=
  List.find?_eq_none.2 fun _ hy hk => h (of_decide_eq_true hk ▸ List.mem_map_of_mem hy)

theorem find?_eq_some_of_nodup (h : (rows.map f).Nodup) {x : ρ} (hx : x ∈ rows) (hk : f x = k) :
    (rows.find? fun y => f y = k) = some x := by
  cases hfind : rows.find? fun y => f y = k with
  | none => exact absurd (decide_eq_true hk) (List.find?_eq_none.1 hfind x hx)
  | some y =>
      have hy : f y = k := by simpa using List.find?_some hfind
      rw [List.inj_on_of_nodup_map h (List.mem_of_find?_eq_some hfind) hx (hy.trans hk.symm)]

end

/-! ## Inserting rows -/

/-- The constraints of a table of rows `ρ`. -/
structure Constraints (ρ κ ι : Type) where
  /-- The columns that `ON CONFLICT` names. -/
  arbiter : ρ → κ
  primaryKey : ρ → ι
  /-- What the types and the checks of the columns have to say about a row. -/
  admits : ρ → Except StatementError Unit

/-- A table that keeps its constraints. -/
structure Table {ρ κ ι : Type} (c : Constraints ρ κ ι) where
  rows : List ρ
  unique : (rows.map c.arbiter).Nodup
  primary : (rows.map c.primaryKey).Nodup

section

variable {ρ κ ι : Type} [DecidableEq κ] (c : Constraints ρ κ ι)

/-- The first value of each arbiter that is not in the table. -/
def firsts (rows : List ρ) : List ρ → List ρ
  | [] => []
  | r :: values =>
      if c.arbiter r ∈ rows.map c.arbiter then firsts rows values
      else r :: firsts (rows ++ [r]) values

variable {c} {rows : List ρ} {values : List ρ}

theorem firsts_of_mem {r : ρ} (h : c.arbiter r ∈ rows.map c.arbiter) :
    firsts c rows (r :: values) = firsts c rows values :=
  if_pos h

theorem firsts_of_notMem {r : ρ} (h : c.arbiter r ∉ rows.map c.arbiter) :
    firsts c rows (r :: values) = r :: firsts c (rows ++ [r]) values :=
  if_neg h

/-- What is a first value, read off the values. -/
theorem mem_firsts_iff {x : ρ} :
    x ∈ firsts c rows values ↔ c.arbiter x ∉ rows.map c.arbiter ∧
      values.find? (fun y => c.arbiter y = c.arbiter x) = some x := by
  induction values generalizing rows with
  | nil => simp [firsts]
  | cons r values ih =>
      by_cases hkey : c.arbiter r ∈ rows.map c.arbiter
      · rw [firsts_of_mem hkey, ih]
        refine and_congr_right fun hx => ?_
        have hne : c.arbiter r ≠ c.arbiter x := fun heq => hx (heq ▸ hkey)
        rw [List.find?_cons_of_neg (by simpa using hne)]
      · rw [firsts_of_notMem hkey, List.mem_cons, ih]
        by_cases heq : c.arbiter r = c.arbiter x
        · rw [List.find?_cons_of_pos (by simpa using heq), Option.some_inj]
          constructor
          · rintro (rfl | ⟨hx, -⟩)
            · exact ⟨hkey, rfl⟩
            · exact absurd (by simp [heq]) hx
          · rintro ⟨-, rfl⟩
            exact .inl rfl
        · rw [List.find?_cons_of_neg (by simpa using heq)]
          simp only [List.map_append, List.map_cons, List.map_nil, List.mem_append,
            List.mem_singleton, not_or]
          constructor
          · rintro (rfl | ⟨⟨hx, -⟩, hfind⟩)
            · exact absurd rfl heq
            · exact ⟨hx, hfind⟩
          · rintro ⟨hx, hfind⟩
            exact .inr ⟨⟨hx, Ne.symm heq⟩, hfind⟩

theorem nodup_map_firsts : ((firsts c rows values).map c.arbiter).Nodup := by
  induction values generalizing rows with
  | nil => exact List.nodup_nil
  | cons r values ih =>
      by_cases hkey : c.arbiter r ∈ rows.map c.arbiter
      · rw [firsts_of_mem hkey]
        exact ih
      · rw [firsts_of_notMem hkey, List.map_cons, List.nodup_cons]
        refine ⟨fun hmem => ?_, ih⟩
        obtain ⟨x, hx, heq⟩ := List.mem_map.1 hmem
        exact (mem_firsts_iff.1 hx).1 (by simp [heq])

end

section

variable {ρ κ ι : Type} [DecidableEq κ] [DecidableEq ι] (c : Constraints ρ κ ι)

/-- The rows that an `INSERT … ON CONFLICT DO NOTHING` of these values adds: a value is checked,
then skipped if its arbiter is there already, possibly from a value before it, and is otherwise a
new row, unless its primary key is taken. -/
def newRows (rows : List ρ) : List ρ → Except StatementError (List ρ)
  | [] => .ok []
  | r :: values => do
      c.admits r
      if c.arbiter r ∈ rows.map c.arbiter then newRows rows values
      else if c.primaryKey r ∈ rows.map c.primaryKey then .error .uniqueViolation
      else
        let new ← newRows (rows ++ [r]) values
        return r :: new

variable {c} {rows : List ρ} {values : List ρ}

theorem newRows_of_refused {r : ρ} {err : StatementError} (h : c.admits r = .error err) :
    newRows c rows (r :: values) = .error err := by
  rw [newRows, h]
  rfl

theorem newRows_of_mem {r : ρ} (h : c.admits r = .ok ())
    (hkey : c.arbiter r ∈ rows.map c.arbiter) :
    newRows c rows (r :: values) = newRows c rows values := by
  rw [newRows, h, if_pos hkey]
  rfl

theorem newRows_of_taken {r : ρ} (h : c.admits r = .ok ())
    (hkey : c.arbiter r ∉ rows.map c.arbiter) (hid : c.primaryKey r ∈ rows.map c.primaryKey) :
    newRows c rows (r :: values) = .error .uniqueViolation := by
  rw [newRows, h, if_neg hkey, if_pos hid]
  rfl

theorem newRows_of_new {r : ρ} (h : c.admits r = .ok ())
    (hkey : c.arbiter r ∉ rows.map c.arbiter) (hid : c.primaryKey r ∉ rows.map c.primaryKey) :
    newRows c rows (r :: values) = (newRows c (rows ++ [r]) values).map (r :: ·) := by
  rw [newRows, h, if_neg hkey, if_neg hid]
  rfl

/-- An insertion goes through when every value is admitted and the first values of the new arbiters
have primary keys of their own; these are then the new rows. -/
theorem newRows_eq_ok_iff {new : List ρ} :
    newRows c rows values = .ok new ↔
      (∀ r ∈ values, c.admits r = .ok ()) ∧ new = firsts c rows values ∧
      (∀ r ∈ firsts c rows values, c.primaryKey r ∉ rows.map c.primaryKey) ∧
      ((firsts c rows values).map c.primaryKey).Nodup := by
  induction values generalizing rows new with
  | nil => simp [newRows, firsts, eq_comm]
  | cons r values ih =>
      rw [List.forall_mem_cons]
      cases hr : c.admits r with
      | error err =>
          rw [newRows_of_refused hr]
          exact iff_of_false nofun fun h => nomatch h.1.1
      | ok u =>
          by_cases hkey : c.arbiter r ∈ rows.map c.arbiter
          · rw [firsts_of_mem hkey, newRows_of_mem hr hkey, ih, and_iff_right rfl]
          rw [firsts_of_notMem hkey, List.forall_mem_cons, List.map_cons, List.nodup_cons]
          by_cases hid : c.primaryKey r ∈ rows.map c.primaryKey
          · rw [newRows_of_taken hr hkey hid]
            exact iff_of_false nofun fun h => h.2.2.1.1 hid
          · rw [newRows_of_new hr hkey hid]
            have hmap : ∀ e : Except StatementError (List ρ),
                e.map (r :: ·) = .ok new ↔ ∃ l, e = .ok l ∧ r :: l = new := by
              rintro (err | l)
              · exact iff_of_false nofun fun ⟨_, h, _⟩ => nomatch h
              · simp [Except.map]
            rw [hmap]
            simp only [ih, List.map_append, List.map_cons, List.map_nil, List.mem_append,
              List.mem_singleton, not_or]
            constructor
            · rintro ⟨l, ⟨hadm, rfl, hfresh, hnodup⟩, rfl⟩
              refine ⟨⟨trivial, hadm⟩, rfl, ⟨hid, fun x hx => (hfresh x hx).1⟩, ?_, hnodup⟩
              rintro hmem
              obtain ⟨x, hx, heq⟩ := List.mem_map.1 hmem
              exact (hfresh x hx).2 heq
            · rintro ⟨⟨-, hadm⟩, rfl, ⟨-, hfresh⟩, hnotMem, hnodup⟩
              refine ⟨_, ⟨hadm, rfl, fun x hx => ⟨hfresh x hx, fun heq => ?_⟩, hnodup⟩, rfl⟩
              exact hnotMem (heq ▸ List.mem_map_of_mem hx)

theorem newRows_append {l₁ l₂ : List ρ} :
    newRows c rows (l₁ ++ l₂) =
      (newRows c rows l₁).bind fun new =>
        (newRows c (rows ++ new) l₂).map (new ++ ·) := by
  induction l₁ generalizing rows with
  | nil => cases h : newRows c rows l₂ <;> simp [newRows, Except.bind, Except.map, h]
  | cons r l₁ ih =>
      rw [List.cons_append]
      cases hr : c.admits r with
      | error err =>
          rw [newRows_of_refused hr, newRows_of_refused hr]
          rfl
      | ok u =>
          by_cases hkey : c.arbiter r ∈ rows.map c.arbiter
          · rw [newRows_of_mem hr hkey, newRows_of_mem hr hkey, ih]
          by_cases hid : c.primaryKey r ∈ rows.map c.primaryKey
          · rw [newRows_of_taken hr hkey hid, newRows_of_taken hr hkey hid]
            rfl
          · rw [newRows_of_new hr hkey hid, newRows_of_new hr hkey hid, ih]
            cases h₁ : newRows c (rows ++ [r]) l₁ with
            | error err => rfl
            | ok new =>
                have hrows : rows ++ [r] ++ new = rows ++ r :: new := by simp
                simp only [Except.bind, Except.map, hrows]
                cases newRows c (rows ++ r :: new) l₂ <;> rfl

/-! ## Statements over a table -/

namespace Table

variable (t : Table c)

/-- The table with the rows that an insertion adds. -/
def append {new : List ρ} (h : newRows c t.rows values = .ok new) : Table c where
  rows := t.rows ++ new
  unique := by
    rw [(newRows_eq_ok_iff.1 h).2.1, List.map_append]
    refine t.unique.append nodup_map_firsts fun k hk hk' => ?_
    obtain ⟨x, hx, rfl⟩ := List.mem_map.1 hk'
    exact (mem_firsts_iff.1 hx).1 hk
  primary := by
    obtain ⟨-, rfl, hfresh, hnodup⟩ := newRows_eq_ok_iff.1 h
    rw [List.map_append]
    refine t.primary.append hnodup fun k hk hk' => ?_
    obtain ⟨x, hx, rfl⟩ := List.mem_map.1 hk'
    exact hfresh x hx hk

/-- One `INSERT` statement, with the number of rows it affected. -/
def insert (values : List ρ) : Except StatementError (ℕ × Table c) :=
  match h : newRows c t.rows values with
  | .ok new => .ok (new.length, t.append h)
  | .error err => .error err

/-- A statement for each chunk, up to the first that fails. -/
def insertChunks (t : Table c) : List (List ρ) → Except StatementError ℕ × Table c
  | [] => (.ok 0, t)
  | chunk :: rest =>
      match t.insert chunk with
      | .error err => (.error err, t)
      | .ok (n, t') =>
          let r := insertChunks t' rest
          (r.1.map (n + ·), r.2)

theorem insert_of_ok {new : List ρ} (h : newRows c t.rows values = .ok new) :
    t.insert values = .ok (new.length, t.append h) := by
  unfold insert
  split
  · rename_i new' h'
    obtain rfl : new' = new := Except.ok.inj (h'.symm.trans h)
    rfl
  · rename_i err h'
    exact nomatch h'.symm.trans h

theorem insert_of_error {err : StatementError} (h : newRows c t.rows values = .error err) :
    t.insert values = .error err := by
  unfold insert
  split
  · rename_i new' h'
    exact nomatch h'.symm.trans h
  · rename_i err' h'
    rw [Except.error.inj (h'.symm.trans h)]

/-- Statement by statement an insertion goes through when it does as a whole, and adds the same
rows. -/
theorem insertChunks_of_ok {chunks : List (List ρ)} {new : List ρ}
    (h : newRows c t.rows chunks.flatten = .ok new) :
    (t.insertChunks chunks).1 = .ok new.length ∧
      (t.insertChunks chunks).2.rows = t.rows ++ new := by
  induction chunks generalizing t new with
  | nil =>
      obtain rfl : [] = new := Except.ok.inj h
      exact ⟨rfl, (List.append_nil _).symm⟩
  | cons chunk chunks ih =>
      rw [List.flatten_cons, newRows_append] at h
      cases hchunk : newRows c t.rows chunk with
      | error err => rw [hchunk] at h; cases h
      | ok new₁ =>
          rw [hchunk] at h
          cases hrest : newRows c (t.rows ++ new₁) chunks.flatten with
          | error err => simp [Except.bind, Except.map, hrest] at h
          | ok new₂ =>
              obtain rfl : new₁ ++ new₂ = new := by
                simpa [Except.bind, Except.map, hrest] using h
              obtain ⟨hcount, hrows⟩ := ih (t.append hchunk) hrest
              simp only [insertChunks, t.insert_of_ok hchunk, hcount, hrows]
              exact ⟨by simp [Except.map], List.append_assoc ..⟩

/-- Otherwise one of the statements fails. -/
theorem insertChunks_of_error {chunks : List (List ρ)} {err : StatementError}
    (h : newRows c t.rows chunks.flatten = .error err) :
    ∃ err', (t.insertChunks chunks).1 = .error err' := by
  induction chunks generalizing t err with
  | nil => cases h
  | cons chunk chunks ih =>
      rw [List.flatten_cons, newRows_append] at h
      cases hchunk : newRows c t.rows chunk with
      | error err =>
          simp only [insertChunks, t.insert_of_error hchunk]
          exact ⟨err, rfl⟩
      | ok new₁ =>
          rw [hchunk] at h
          cases hrest : newRows c (t.rows ++ new₁) chunks.flatten with
          | error err' =>
              obtain ⟨err'', herr⟩ := ih (t.append hchunk) hrest
              simp only [insertChunks, t.insert_of_ok hchunk, herr]
              exact ⟨err'', rfl⟩
          | ok new₂ => simp [Except.bind, Except.map, hrest] at h

/-- Whatever becomes of it, an insertion only adds rows, and only from the values. -/
theorem insertChunks_rows (chunks : List (List ρ)) :
    ∃ new, (t.insertChunks chunks).2.rows = t.rows ++ new ∧ new ⊆ chunks.flatten := by
  induction chunks generalizing t with
  | nil => exact ⟨[], (List.append_nil _).symm, List.Subset.refl _⟩
  | cons chunk chunks ih =>
      cases hchunk : newRows c t.rows chunk with
      | error err =>
          simp only [insertChunks, t.insert_of_error hchunk]
          exact ⟨[], (List.append_nil _).symm, List.nil_subset _⟩
      | ok new₁ =>
          obtain ⟨new₂, hrows, hsub⟩ := ih (t.append hchunk)
          have hfirsts : new₁ ⊆ chunk := by
            rw [(newRows_eq_ok_iff.1 hchunk).2.1]
            exact fun x hx => List.mem_of_find?_eq_some (mem_firsts_iff.1 hx).2
          simp only [insertChunks, t.insert_of_ok hchunk]
          refine ⟨new₁ ++ new₂, ?_, ?_⟩
          · rw [hrows]
            exact List.append_assoc ..
          · rw [List.flatten_cons]
            exact List.append_subset.2 ⟨fun x hx => List.mem_append_left _ (hfirsts hx),
              fun x hx => List.mem_append_right _ (hsub hx)⟩

end Table

/-! ## Values in another order -/

/-- The values in pieces of at most `size`, in order. -/
def chunksOf (size : ℕ) : ℕ → List ρ → List (List ρ)
  | 0, _ => []
  | fuel + 1, l =>
      if l.isEmpty then [] else l.take size :: chunksOf size fuel (l.drop size)

omit [DecidableEq κ] [DecidableEq ι] in
theorem flatten_chunksOf {size fuel : ℕ} (hsize : 0 < size) {l : List ρ} (h : l.length ≤ fuel) :
    (chunksOf size fuel l).flatten = l := by
  induction fuel generalizing l with
  | zero =>
      obtain rfl := List.eq_nil_of_length_eq_zero (Nat.le_zero.1 h)
      rfl
  | succ fuel ih =>
      rw [chunksOf]
      split
      · rename_i hempty
        rw [List.isEmpty_iff.1 hempty]
        rfl
      · rename_i hne
        have hpos : 0 < l.length := List.length_pos_iff.2 fun hnil => hne (by rw [hnil]; rfl)
        have hdrop : (l.drop size).length ≤ fuel := by
          rw [List.length_drop]
          omega
        rw [List.flatten_cons, ih hdrop, List.take_append_drop]

omit [DecidableEq ι] in
/-- A stable sort by a preorder on the arbiters keeps the values of one arbiter in order. -/
theorem find?_insertionSort {le : ρ → ρ → Prop} [DecidableRel le] [Std.Total le] [IsTrans ρ le]
    (hle : ∀ x y, c.arbiter x = c.arbiter y → le x y) (values : List ρ) (k : κ) :
    (values.insertionSort le).find? (fun y => c.arbiter y = k) =
      values.find? (fun y => c.arbiter y = k) := by
  have hkeys : (values.filter fun y => c.arbiter y = k).Pairwise le :=
    List.pairwise_of_forall_mem_list fun x hx y hy => hle x y <| by
      rw [of_decide_eq_true (List.mem_filter.1 hx).2, of_decide_eq_true (List.mem_filter.1 hy).2]
  have hsub := (List.sublist_insertionSort hkeys List.filter_sublist).filter
    fun y => decide (c.arbiter y = k)
  rw [List.filter_filter] at hsub
  simp only [Bool.and_self] at hsub
  have hlength := ((List.perm_insertionSort le values).filter
    fun y => decide (c.arbiter y = k)).length_eq
  rw [← List.head?_filter, ← List.head?_filter, hsub.eq_of_length hlength.symm]

end

end Shardd.Postgres

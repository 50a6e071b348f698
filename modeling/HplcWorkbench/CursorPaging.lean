import Mathlib.Data.List.Sort
import Mathlib.Order.Defs.LinearOrder

/-!
# Pages behind a cursor

A buffer is sorted by a key and a page holds the first entries behind a cursor, which then moves to
the last entry of the page. Between two pages the buffer may grow at its end and lose entries at
its start.
-/

namespace CursorPaging
variable {α K : Type} [LinearOrder K] (key : α → K) (p : α → Bool) (limit : ℕ)

def rest (buffer : List α) (cursor : K) : List α := buffer.filter fun a => cursor < key a ∧ p a

def page (buffer : List α) (cursor : K) : List α := (rest key p buffer cursor).take limit

def next (cursor : K) (shown : List α) : K := (shown.getLast?.map key).getD cursor

/-- The pages that are read from one snapshot after another. -/
def pages : K → List (List α) → List (List α)
  | _, [] => []
  | cursor, buffer :: later =>
    page key p limit buffer cursor :: pages (next key cursor (page key p limit buffer cursor)) later

/-- The page of the last snapshot leaves nothing. -/
def Ends : K → List (List α) → Prop
  | _, [] => False
  | cursor, [buffer] => (rest key p buffer cursor).length ≤ limit
  | cursor, buffer :: later => Ends (next key cursor (page key p limit buffer cursor)) later

def Ordered (buffer : List α) : Prop := buffer.Pairwise fun a b => key a < key b

/-- Nothing comes into the later snapshot but behind the entries of the earlier one. -/
def Keeps (earlier later : List α) : Prop :=
  ∀ z ∈ earlier, ∀ a ∈ later, key a ≤ key z → a ∈ earlier

section Page
variable {key p limit} {buffer : List α} {cursor : K} {a z : α}

theorem mem_rest : a ∈ rest key p buffer cursor ↔ a ∈ buffer ∧ cursor < key a ∧ p a = true := by
  rw [rest, List.mem_filter, decide_eq_true_eq]

theorem rest_ordered (p : α → Bool) (cursor : K) (h : Ordered key buffer) :
    Ordered key (rest key p buffer cursor) :=
  h.sublist List.filter_sublist

theorem mem_page (ha : a ∈ page key p limit buffer cursor) :
    a ∈ buffer ∧ cursor < key a ∧ p a = true :=
  mem_rest.mp (List.mem_of_mem_take ha)

/-- A page has everything up to each of its entries. -/
theorem mem_page_of_le (h : Ordered key buffer) (hz : z ∈ page key p limit buffer cursor)
    (ha : a ∈ rest key p buffer cursor) (hle : key a ≤ key z) :
    a ∈ page key p limit buffer cursor := by
  have hsplit := List.take_append_drop limit (rest key p buffer cursor)
  have hordered := rest_ordered p cursor h
  rw [Ordered, ← hsplit, List.pairwise_append] at hordered
  rw [← hsplit, List.mem_append] at ha
  rcases ha with ha | ha
  · exact ha
  · exact absurd (hordered.2.2 z hz a ha) (not_lt.mpr hle)

/-- The cursor moves to the last entry of the page. -/
theorem next_spec (cursor : K) {shown : List α} (h : Ordered key shown) :
    shown = [] ∧ next key cursor shown = cursor ∨
      ∃ z ∈ shown, next key cursor shown = key z ∧ ∀ a ∈ shown, key a ≤ key z := by
  rcases List.eq_nil_or_concat' shown with rfl | ⟨before, z, rfl⟩
  · exact .inl ⟨rfl, rfl⟩
  · right
    refine ⟨z, List.mem_append_right _ (List.mem_singleton_self z), ?_, ?_⟩
    · rw [next, List.getLast?_concat]
      rfl
    · intro a ha
      rcases List.mem_append.mp ha with ha | ha
      · exact ((List.pairwise_append.mp h).2.2 a ha z (List.mem_singleton_self z)).le
      · rw [List.mem_singleton.mp ha]

theorem page_ordered (p : α → Bool) (limit : ℕ) (cursor : K) (h : Ordered key buffer) :
    Ordered key (page key p limit buffer cursor) :=
  (rest_ordered p cursor h).sublist (List.take_sublist _ _)

theorem le_next (h : Ordered key buffer) :
    cursor ≤ next key cursor (page key p limit buffer cursor) := by
  rcases next_spec cursor (page_ordered p limit cursor h) with
    ⟨-, hnext⟩ | ⟨z, hz, hnext, -⟩
  · exact hnext.ge
  · rw [hnext]
    exact (mem_page hz).2.1.le

theorem le_next_of_mem (h : Ordered key buffer) (ha : a ∈ page key p limit buffer cursor) :
    key a ≤ next key cursor (page key p limit buffer cursor) := by
  rcases next_spec cursor (page_ordered p limit cursor h) with
    ⟨hnil, -⟩ | ⟨z, -, hnext, hlast⟩
  · rw [hnil] at ha
    cases ha
  · rw [hnext]
    exact hlast a ha

/-- What is behind the cursor after a page is what the page left. -/
theorem rest_next (p : α → Bool) (cursor : K) (h : Ordered key buffer) (hlimit : 0 < limit) :
    rest key p buffer (next key cursor (page key p limit buffer cursor)) =
      (rest key p buffer cursor).drop limit := by
  set after := next key cursor (page key p limit buffer cursor) with hafter
  have hmoved : cursor ≤ after := le_next h
  have hfilter : rest key p buffer after = (rest key p buffer cursor).filter (after < key ·) := by
    rw [rest, rest, List.filter_filter]
    apply List.filter_congr
    intro a _
    have hbehind : after < key a → cursor < key a := fun hlt => hmoved.trans_lt hlt
    cases p a with
    | false => simp
    | true => simpa using hbehind
  have hordered := rest_ordered p cursor h
  rw [Ordered, ← List.take_append_drop limit (rest key p buffer cursor), List.pairwise_append]
    at hordered
  have hshown : (page key p limit buffer cursor).filter (after < key ·) = [] := by
    rw [List.filter_eq_nil_iff]
    intro a ha hlt
    exact absurd (of_decide_eq_true hlt) (not_lt.mpr (le_next_of_mem h ha))
  have hleft : ((rest key p buffer cursor).drop limit).filter (after < key ·) =
      (rest key p buffer cursor).drop limit := by
    rw [List.filter_eq_self]
    intro a ha
    rcases next_spec cursor (page_ordered p limit cursor h) with
      ⟨hnil, -⟩ | ⟨z, hz, hnext, -⟩
    · rcases List.take_eq_nil_iff.mp hnil with hzero | hempty
      · omega
      · rw [hempty, List.drop_nil] at ha
        cases ha
    · exact decide_eq_true (hafter ▸ hnext ▸ hordered.2.2 z hz a ha)
  rw [page] at hshown
  rw [hfilter]
  conv_lhs => rw [← List.take_append_drop limit (rest key p buffer cursor)]
  rw [List.filter_append, hshown, hleft, List.nil_append]

end Page

/-! ## Paging through snapshots -/

section Pages
variable {key p limit} {cursor : K}

theorem pages_ordered (p : α → Bool) (limit : ℕ) (cursor : K) {snapshots : List (List α)}
    (h : ∀ b ∈ snapshots, Ordered key b) :
    Ordered key (pages key p limit cursor snapshots).flatten ∧
      ∀ a ∈ (pages key p limit cursor snapshots).flatten, cursor < key a ∧ p a = true := by
  induction snapshots generalizing cursor with
  | nil => exact ⟨List.Pairwise.nil, List.forall_mem_nil _⟩
  | cons buffer later ih =>
    obtain ⟨hbuffer, hlater⟩ := List.forall_mem_cons.mp h
    obtain ⟨hordered, hbehind⟩ := ih (next key cursor (page key p limit buffer cursor)) hlater
    rw [pages, List.flatten_cons]
    constructor
    · refine List.pairwise_append.mpr ⟨page_ordered p limit cursor hbuffer, hordered, ?_⟩
      intro a ha b hb
      exact (le_next_of_mem hbuffer ha).trans_lt (hbehind b hb).1
    · intro a ha
      rcases List.mem_append.mp ha with ha | ha
      · exact (mem_page ha).2
      · exact ⟨(le_next hbuffer).trans_lt (hbehind a ha).1, (hbehind a ha).2⟩

/-- Every entry of the last snapshot that is asked for is on a page. -/
theorem mem_pages {snapshots : List (List α)} (h : ∀ b ∈ snapshots, Ordered key b)
    (hkeeps : snapshots.Pairwise (Keeps key)) (hends : Ends key p limit cursor snapshots)
    {last : List α} (hlast : last ∈ snapshots.getLast?) {a : α} (ha : a ∈ last)
    (hcursor : cursor < key a) (hp : p a = true) :
    a ∈ (pages key p limit cursor snapshots).flatten := by
  induction snapshots generalizing cursor with
  | nil => cases hends
  | cons buffer later ih =>
    obtain ⟨hbuffer, hordered⟩ := List.forall_mem_cons.mp h
    obtain ⟨hhead, htail⟩ := List.pairwise_cons.mp hkeeps
    rw [pages, List.flatten_cons, List.mem_append]
    cases later with
    | nil =>
      left
      obtain rfl : buffer = last := Option.some.inj hlast
      have hall : page key p limit buffer cursor = rest key p buffer cursor :=
        List.take_of_length_le hends
      rw [hall]
      exact mem_rest.mpr ⟨ha, hcursor, hp⟩
    | cons buffer' later =>
      rw [List.getLast?_cons_cons] at hlast
      by_cases hpassed : key a ≤ next key cursor (page key p limit buffer cursor)
      · left
        rcases next_spec cursor (page_ordered p limit cursor hbuffer)
          with ⟨-, hnext⟩ | ⟨z, hz, hnext, -⟩
        · exact absurd hcursor (not_lt.mpr (hnext ▸ hpassed))
        · rw [hnext] at hpassed
          have hkept := hhead last (List.mem_of_getLast? hlast) z (mem_page hz).1 a ha hpassed
          exact mem_page_of_le hbuffer hz (mem_rest.mpr ⟨hkept, hcursor, hp⟩) hpassed
      · right
        exact ih hordered htail hends hlast (not_le.mp hpassed)

end Pages
end CursorPaging

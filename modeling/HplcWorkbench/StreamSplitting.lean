import Mathlib.Data.List.Basic
import Mathlib.Data.List.Infix

/-!
# Splitting a stream that arrives in chunks

A splitter looks at its buffer and takes a labelled prefix of it, drops a prefix, or waits for the
next chunk. Its answer may change when the buffer grows, so the pieces it returns can depend on
the chunks. They are the pieces of the stream exactly when every look at a piece answers right
during the calls that begin before the piece has arrived.
-/

namespace StreamSplitting

/-- What a splitter does with its buffer. -/
inductive Look (β : Type*)
  | hit (label : β) (k : ℕ)
  | skip (k : ℕ)
  | wait

structure Splitter (α β : Type*) where
  look : List α → Look β
  hit_bounds : ∀ {b l k}, look b = .hit l k → 0 < k ∧ k ≤ b.length
  skip_bounds : ∀ {b k}, look b = .skip k → 0 < k ∧ k ≤ b.length

variable {α β : Type*}

/-- The stream that labelled pieces make up. -/
def content (ps : List (β × List α)) : List α := (ps.map Prod.snd).flatten

@[simp] theorem content_nil : content ([] : List (β × List α)) = [] := rfl

@[simp] theorem content_cons (l : β) (f : List α) (ps : List (β × List α)) :
    content ((l, f) :: ps) = f ++ content ps := rfl

@[simp] theorem content_append (ps qs : List (β × List α)) :
    content (ps ++ qs) = content ps ++ content qs := by
  rw [content, List.map_append, List.flatten_append]
  rfl

/-- A stream parted into gaps and pieces, one after the other, with the last bytes left. -/
inductive Parted : List α → List (List α) → List α → Prop
  | left (b : List α) : Parted b [] b
  | gap {b r : List α} {ps : List (List α)} (g : List α) : Parted b ps r → Parted (g ++ b) ps r
  | piece {b r : List α} {ps : List (List α)} (p : List α) : Parted b ps r → Parted (p ++ b) (p :: ps) r

theorem Parted.append {b r : List α} {ps : List (List α)} (h : Parted b ps r) (t : List α) :
    Parted (b ++ t) ps (r ++ t) := by
  induction h with
  | left b => exact .left _
  | gap g h ih =>
      rw [List.append_assoc]
      exact ih.gap g
  | piece p h ih =>
      rw [List.append_assoc]
      exact ih.piece p

theorem Parted.trans {b r r' : List α} {ps qs : List (List α)} (h : Parted b ps r)
    (h' : Parted r qs r') : Parted b (ps ++ qs) r' := by
  induction h with
  | left b => exact h'
  | gap g h ih => exact (ih h').gap g
  | piece p h ih => exact (ih h').piece p

namespace Splitter
variable (s : Splitter α β)

def drainFuel : ℕ → List α → List (β × List α) × List α
  | 0, b => ([], b)
  | fuel + 1, b =>
    match s.look b with
    | .hit l k =>
      let r := drainFuel fuel (b.drop k)
      ((l, b.take k) :: r.1, r.2)
    | .skip k => drainFuel fuel (b.drop k)
    | .wait => ([], b)

/-- Looking until the splitter waits. Every other answer shortens the buffer, so its length bounds
the number of looks. -/
def drain (b : List α) : List (β × List α) × List α := s.drainFuel (b.length + 1) b

/-- The pieces returned over all chunks. -/
def receive : List α → List (List α) → List (β × List α)
  | _, [] => []
  | b, c :: chunks => (s.drain (b ++ c)).1 ++ receive (s.drain (b ++ c)).2 chunks

section Drain
variable {s} {b : List α} {l : β} {k : ℕ}

theorem drainFuel_eq (fuel fuel' : ℕ) (b : List α) (h : b.length < fuel) (h' : b.length < fuel') :
    s.drainFuel fuel b = s.drainFuel fuel' b := by
  induction fuel generalizing fuel' b with
  | zero => omega
  | succ fuel ih =>
      cases fuel' with
      | zero => omega
      | succ fuel' =>
          cases hlook : s.look b with
          | hit l k =>
              have hk := s.hit_bounds hlook
              have hlen : (b.drop k).length = b.length - k := List.length_drop
              simp only [drainFuel, hlook, ih fuel' (b.drop k) (by omega) (by omega)]
          | skip k =>
              have hk := s.skip_bounds hlook
              have hlen : (b.drop k).length = b.length - k := List.length_drop
              simp only [drainFuel, hlook, ih fuel' (b.drop k) (by omega) (by omega)]
          | wait => simp only [drainFuel, hlook]

theorem drain_wait (h : s.look b = .wait) : s.drain b = ([], b) := by
  simp only [drain, drainFuel, h]

theorem drain_hit (h : s.look b = .hit l k) :
    s.drain b = ((l, b.take k) :: (s.drain (b.drop k)).1, (s.drain (b.drop k)).2) := by
  have hk := s.hit_bounds h
  have hlen : (b.drop k).length = b.length - k := List.length_drop
  have hfuel := drainFuel_eq (s := s) b.length ((b.drop k).length + 1) (b.drop k) (by omega)
    (by omega)
  simp only [drain, drainFuel, h, hfuel]

theorem drain_skip (h : s.look b = .skip k) : s.drain b = s.drain (b.drop k) := by
  have hk := s.skip_bounds h
  have hlen : (b.drop k).length = b.length - k := List.length_drop
  have hfuel := drainFuel_eq (s := s) b.length ((b.drop k).length + 1) (b.drop k) (by omega)
    (by omega)
  simp only [drain, drainFuel, h, hfuel]

theorem look_nil : s.look [] = .wait := by
  cases h : s.look [] with
  | hit l k =>
      have hk := s.hit_bounds h
      rw [List.length_nil] at hk
      omega
  | skip k =>
      have hk := s.skip_bounds h
      rw [List.length_nil] at hk
      omega
  | wait => rfl

/-- Every look that does not wait shortens the buffer. -/
theorem drain_induction {P : List α → Prop} (hwait : ∀ b, s.look b = .wait → P b)
    (hhit : ∀ b l k, s.look b = .hit l k → P (b.drop k) → P b)
    (hskip : ∀ b k, s.look b = .skip k → P (b.drop k) → P b) (b : List α) : P b := by
  induction hn : b.length using Nat.strong_induction_on generalizing b with
  | _ n ih =>
      have hdrop : ∀ k, (b.drop k).length = b.length - k := fun k => List.length_drop
      cases hlook : s.look b with
      | hit l k =>
          have hk := s.hit_bounds hlook
          exact hhit b l k hlook (ih _ (by rw [hdrop]; omega) (b.drop k) rfl)
      | skip k =>
          have hk := s.skip_bounds hlook
          exact hskip b k hlook (ih _ (by rw [hdrop]; omega) (b.drop k) rfl)
      | wait => exact hwait b hlook

/-- Nothing is returned twice: pieces and rest are no longer than the buffer. -/
theorem drain_length (b : List α) :
    (content (s.drain b).1).length + (s.drain b).2.length ≤ b.length := by
  induction b using drain_induction (s := s) with
  | hwait b hlook =>
      rw [drain_wait hlook, content_nil, List.length_nil, Nat.zero_add]
  | hhit b l k hlook hrest =>
      have hk := s.hit_bounds hlook
      rw [List.length_drop] at hrest
      rw [drain_hit hlook]
      simp only [content_cons, List.length_append, List.length_take]
      omega
  | hskip b k hlook hrest =>
      have hk := s.skip_bounds hlook
      rw [List.length_drop] at hrest
      rw [drain_skip hlook]
      omega

/-- At the end the splitter waits. -/
theorem drain_waits (b : List α) : s.look (s.drain b).2 = .wait := by
  induction b using drain_induction (s := s) with
  | hwait b hlook =>
      rw [drain_wait hlook]
      exact hlook
  | hhit b l k hlook hrest =>
      rw [drain_hit hlook]
      exact hrest
  | hskip b k hlook hrest =>
      rw [drain_skip hlook]
      exact hrest

/-- Every piece was the answer to a look at the bytes that begin with it. -/
theorem drain_answers (b : List α) :
    ∀ p ∈ (s.drain b).1, ∃ t, s.look (p.2 ++ t) = .hit p.1 p.2.length := by
  induction b using drain_induction (s := s) with
  | hwait b hlook =>
      intro p hp
      rw [drain_wait hlook] at hp
      cases hp
  | hhit b l k hlook hrest =>
      intro p hp
      rw [drain_hit hlook] at hp
      cases hp with
      | head =>
          have hk := s.hit_bounds hlook
          have hlength : (b.take k).length = k := by
            rw [List.length_take]
            omega
          refine ⟨b.drop k, ?_⟩
          dsimp only
          rw [List.take_append_drop, hlength]
          exact hlook
      | tail _ hp => exact hrest p hp
  | hskip b k hlook hrest =>
      intro p hp
      rw [drain_skip hlook] at hp
      exact hrest p hp

theorem drain_parted (b : List α) : Parted b ((s.drain b).1.map Prod.snd) (s.drain b).2 := by
  induction b using drain_induction (s := s) with
  | hwait b hlook =>
      rw [drain_wait hlook]
      exact .left b
  | hhit b l k hlook hrest =>
      rw [drain_hit hlook]
      have hparted := hrest.piece (b.take k)
      rwa [List.take_append_drop] at hparted
  | hskip b k hlook hrest =>
      rw [drain_skip hlook]
      have hparted := hrest.gap (b.take k)
      rwa [List.take_append_drop] at hparted

theorem receive_length (b : List α) (chunks : List (List α)) :
    (content (s.receive b chunks)).length ≤ b.length + chunks.flatten.length := by
  induction chunks generalizing b with
  | nil => simp [receive]
  | cons c chunks ih =>
      have hdrain := drain_length (s := s) (b ++ c)
      have hrest := ih (s.drain (b ++ c)).2
      rw [List.length_append] at hdrain
      simp only [receive, content_append, List.length_append, List.flatten_cons]
      omega

/-- Where something is dropped the whole stream cannot come out. -/
theorem content_ne_of_skip (h : s.look b = .skip k) (chunks : List (List α)) :
    content ((s.drain b).1 ++ s.receive (s.drain b).2 chunks) ≠ b ++ chunks.flatten := by
  intro heq
  have hk := s.skip_bounds h
  have hdrain := drain_length (s := s) (b.drop k)
  have hrest := receive_length (s := s) (s.drain (b.drop k)).2 chunks
  have hlen := congrArg List.length heq
  rw [drain_skip h] at hlen
  simp only [content_append, List.length_append, List.length_drop] at hlen hdrain
  omega

end Drain

/-! ## When the pieces of the stream come out -/

/-- `seen`, which is the part that has arrived of a stream that begins with the piece `f`, is
answered with a wait while it is shorter than the piece and then with the piece. -/
def Answers (l : β) (f seen : List α) : Prop :=
  (seen ≠ [] → seen.length < f.length → s.look seen = .wait) ∧
    (f.length ≤ seen.length → s.look seen = .hit l f.length)

/-- Every piece that the buffer reaches is answered right. -/
def Settled (ps : List (β × List α)) (b : List α) : Prop :=
  ∀ before l f after, ps = before ++ (l, f) :: after →
    s.Answers l f (b.drop (content before).length)

/-- Every piece is answered right in each call that begins before the piece has arrived. -/
def Timely (b : List α) (ps : List (β × List α)) (chunks : List (List α)) : Prop :=
  ∀ before l f after, ps = before ++ (l, f) :: after →
    ∀ past c future, chunks = past ++ c :: future →
      (b ++ past.flatten).length < (content before).length + f.length →
      s.Answers l f ((b ++ past.flatten ++ c).drop (content before).length)

section Settled
variable {s} {b : List α} {l : β} {f : List α} {ps : List (β × List α)}

theorem settled_cons :
    s.Settled ((l, f) :: ps) b ↔ s.Answers l f b ∧ s.Settled ps (b.drop f.length) := by
  constructor
  · intro h
    refine ⟨h [] l f ps rfl, fun before l' f' after heq => ?_⟩
    have hthis := h ((l, f) :: before) l' f' after (by rw [heq]; rfl)
    rwa [content_cons, List.length_append, ← List.drop_drop] at hthis
  · rintro ⟨hhead, htail⟩ before l' f' after heq
    cases before with
    | nil =>
        obtain ⟨hp, -⟩ := List.cons.inj heq
        obtain ⟨rfl, rfl⟩ := Prod.mk.inj hp
        exact hhead
    | cons p before =>
        obtain ⟨rfl, hrest⟩ := List.cons.inj heq
        rw [content_cons, List.length_append, ← List.drop_drop]
        exact htail before l' f' after hrest

/-- A buffer that reaches no piece has nothing to answer. -/
theorem settled_nil (hne : ∀ p ∈ ps, p.2 ≠ []) : s.Settled ps [] := by
  rintro before l f after rfl
  have hf : f ≠ [] := hne (l, f) (by simp)
  rw [List.drop_nil]
  exact ⟨fun h => absurd rfl h, fun h => absurd (List.length_eq_zero_iff.mp (Nat.le_zero.mp h)) hf⟩

/-- A settled buffer is drained of its whole pieces. -/
theorem drain_of_settled (hne : ∀ p ∈ ps, p.2 ≠ []) (hb : b <+: content ps)
    (h : s.Settled ps b) :
    ∃ done left rest, ps = done ++ left ∧ b = content done ++ rest ∧
      (∀ p ∈ left.head?, rest.length < p.2.length) ∧ s.drain b = (done, rest) := by
  induction ps generalizing b with
  | nil =>
      obtain rfl := List.prefix_nil.mp hb
      exact ⟨[], [], [], rfl, rfl, by simp, drain_wait look_nil⟩
  | cons p ps ih =>
      obtain ⟨l, f⟩ := p
      obtain ⟨hhead, htail⟩ := settled_cons.mp h
      by_cases hlong : f.length ≤ b.length
      · obtain ⟨rest, rfl⟩ : ∃ rest, b = f ++ rest :=
          ⟨b.drop f.length, (List.prefix_append_drop
            (List.prefix_of_prefix_length_le (List.prefix_append f _) hb hlong))⟩
        have hrest : rest <+: content ps := (List.prefix_append_right_inj f).mp hb
        rw [List.drop_left] at htail
        obtain ⟨done, left, rest', rfl, rfl, hshort, hdrain⟩ :=
          ih (fun p hp => hne p (List.mem_cons_of_mem _ hp)) hrest htail
        refine ⟨(l, f) :: done, left, rest', rfl, by simp, hshort, ?_⟩
        rw [drain_hit (hhead.2 hlong), List.drop_left, List.take_left, hdrain]
      · refine ⟨[], (l, f) :: ps, b, rfl, rfl, by simpa using hlong, ?_⟩
        by_cases hnil : b = []
        · rw [hnil]
          exact drain_wait look_nil
        · exact drain_wait (hhead.1 hnil (not_le.mp hlong))

end Settled

section Necessity
variable {s} {b : List α} {l : β} {f : List α} {ps : List (β × List α)} {chunks : List (List α)}

/-- A piece that no longer buffer is answered with does not come out first. -/
theorem receive_ne_of_never (hnever : ∀ t, s.look (b ++ t) ≠ .hit l f.length)
    (hlen : f.length ≤ b.length) (hstream : b ++ chunks.flatten = content ((l, f) :: ps)) :
    s.receive b chunks ≠ (l, f) :: ps := by
  induction chunks generalizing b with
  | nil =>
      intro h
      cases h
  | cons c chunks ih =>
      intro h
      rw [List.flatten_cons, ← List.append_assoc] at hstream
      cases hlook : s.look (b ++ c) with
      | hit l' k =>
          have hk := s.hit_bounds hlook
          rw [receive, drain_hit hlook] at h
          obtain ⟨hfirst, -⟩ := List.cons.inj h
          obtain ⟨rfl, hf⟩ := Prod.mk.inj hfirst
          have hcount := congrArg List.length hf
          rw [List.length_take, Nat.min_eq_left hk.2] at hcount
          exact hnever c (hcount ▸ hlook)
      | skip k =>
          refine content_ne_of_skip hlook chunks ?_
          rw [hstream]
          exact congrArg content h
      | wait =>
          rw [receive, drain_wait hlook] at h
          refine ih (fun t => ?_) (by rw [List.length_append]; omega) hstream h
          rw [List.append_assoc]
          exact hnever (c ++ t)

/-- Where the pieces come out, the buffer was settled. `hlate` says that a piece on which the
splitter waits although it has arrived is never answered later. -/
theorem settled_of_outputs (hne : ∀ p ∈ ps, p.2 ≠ [])
    (hlate : ∀ p ∈ ps, ∀ t t', s.look (p.2 ++ t) = .wait →
      s.look (p.2 ++ t ++ t') ≠ .hit p.1 p.2.length)
    (hstream : b ++ chunks.flatten = content ps)
    (h : (s.drain b).1 ++ s.receive (s.drain b).2 chunks = ps) : s.Settled ps b := by
  induction ps generalizing b with
  | nil =>
      rintro before l f after heq
      exact absurd heq (by simp)
  | cons p ps ih =>
      obtain ⟨l, f⟩ := p
      have hf : f ≠ [] := hne (l, f) List.mem_cons_self
      have hne' : ∀ p ∈ ps, p.2 ≠ [] := fun p hp => hne p (List.mem_cons_of_mem _ hp)
      rw [settled_cons]
      cases hlook : s.look b with
      | hit l' k =>
          have hk := s.hit_bounds hlook
          rw [drain_hit hlook] at h
          obtain ⟨hfirst, hrest⟩ := List.cons.inj h
          obtain ⟨rfl, rfl⟩ := Prod.mk.inj hfirst
          have hcount : (b.take k).length = k := by
            rw [List.length_take, Nat.min_eq_left hk.2]
          rw [content_cons] at hstream
          have hstream' : b.drop k ++ chunks.flatten = content ps := by
            rw [← List.append_cancel_left_eq (b.take k), ← hstream, ← List.append_assoc,
              List.take_append_drop]
          rw [Answers, hcount]
          refine ⟨⟨fun _ hshort => absurd hk.2 (not_le.mpr hshort), fun _ => hlook⟩, ?_⟩
          exact ih hne' (fun p hp => hlate p (List.mem_cons_of_mem _ hp)) hstream' hrest
      | skip k =>
          refine absurd ?_ (content_ne_of_skip hlook chunks)
          rw [hstream]
          exact congrArg content h
      | wait =>
          have hshort : b.length < f.length := by
            by_contra hlong
            have hprefix : b <+: f ++ content ps := ⟨chunks.flatten, hstream⟩
            obtain ⟨t, rfl⟩ : ∃ t, b = f ++ t :=
              ⟨b.drop f.length, List.prefix_append_drop (List.prefix_of_prefix_length_le
                (List.prefix_append f (content ps)) hprefix (not_lt.mp hlong))⟩
            rw [drain_wait hlook] at h
            exact receive_ne_of_never
              (fun t' => hlate (l, f) List.mem_cons_self t t' hlook) (not_lt.mp hlong) hstream h
          refine ⟨⟨fun _ _ => hlook, fun hlong => absurd hlong (not_le.mpr hshort)⟩, ?_⟩
          rw [List.drop_of_length_le hshort.le]
          exact settled_nil hne'

end Necessity

section Timely
variable {s} {b c rest : List α} {chunks : List (List α)} {ps done left : List (β × List α)}

/-- A piece of a list of two parts is in the second or in the first part. -/
theorem split_cases {before after : List (β × List α)} {p : β × List α}
    (h : done ++ left = before ++ p :: after) :
    (∃ before', before = done ++ before' ∧ left = before' ++ p :: after) ∨
      ∃ tail, done = before ++ p :: tail := by
  rcases List.append_eq_append_iff.mp h with ⟨before', hbefore, hleft⟩ | ⟨tail, hdone, hafter⟩
  · exact Or.inl ⟨before', hbefore, hleft⟩
  · cases tail with
    | nil => exact Or.inl ⟨[], by rw [hdone, List.append_nil, List.append_nil], hafter.symm⟩
    | cons q tail =>
        obtain ⟨rfl, -⟩ := List.cons.inj hafter
        exact Or.inr ⟨tail, hdone⟩

theorem settled_of_timely (hshort : ∀ p ∈ ps.head?, b.length < p.2.length)
    (h : s.Timely b ps (c :: chunks)) : s.Settled ps (b ++ c) := by
  intro before l f after heq
  have hthis := h before l f after heq [] c chunks rfl
  simp only [List.flatten_nil, List.append_nil] at hthis
  refine hthis ?_
  cases before with
  | nil => simpa using hshort (l, f) (by rw [heq]; rfl)
  | cons p before =>
      obtain ⟨l', f'⟩ := p
      have hfirst : b.length < f'.length := hshort (l', f') (by rw [heq]; rfl)
      rw [content_cons, List.length_append]
      omega

/-- The first call settles its buffer, and the others are timely for what it leaves. -/
theorem timely_cons (hb : b ++ c = content done ++ rest)
    (hshort : ∀ p ∈ (done ++ left).head?, b.length < p.2.length) :
    s.Timely b (done ++ left) (c :: chunks) ↔
      s.Settled (done ++ left) (b ++ c) ∧ s.Timely rest left chunks := by
  have harrived : ∀ past : List (List α), (b ++ (c :: past).flatten).length =
      (content done).length + (rest ++ past.flatten).length := by
    intro past
    have hcount := congrArg List.length hb
    simp only [List.length_append, List.flatten_cons] at hcount ⊢
    omega
  have hseen : ∀ (before : List (β × List α)) (past : List (List α)) (c' : List α),
      (b ++ (c :: past).flatten ++ c').drop (content (done ++ before)).length =
        (rest ++ past.flatten ++ c').drop (content before).length := by
    intro before past c'
    rw [List.flatten_cons, ← List.append_assoc, hb, content_append, List.length_append,
      ← List.drop_drop, List.append_assoc, List.append_assoc, List.drop_left, ← List.append_assoc]
  constructor
  · intro h
    constructor
    · exact settled_of_timely hshort h
    · intro before l f after heq past c' future hchunks hguard
      rw [← hseen]
      refine h (done ++ before) l f after (by rw [heq, List.append_assoc]) (c :: past) c' future
        (by rw [hchunks]; rfl) ?_
      rw [harrived, content_append]
      simp only [List.length_append] at hguard ⊢
      omega
  · rintro ⟨hsettled, htimely⟩ before l f after heq past c' future hchunks hguard
    cases past with
    | nil =>
        obtain ⟨rfl, -⟩ := List.cons.inj hchunks
        simpa using hsettled before l f after heq
    | cons c₀ past =>
        obtain ⟨rfl, hchunks'⟩ := List.cons.inj hchunks
        rw [harrived] at hguard
        rcases split_cases heq with ⟨before', rfl, hleft⟩ | ⟨tail, rfl⟩
        · rw [hseen]
          refine htimely before' l f after hleft past c' future hchunks' ?_
          rw [content_append] at hguard
          simp only [List.length_append] at hguard ⊢
          omega
        · -- a piece that the first call has returned is not looked at again
          simp only [content_append, content_cons, List.length_append] at hguard
          omega

end Timely

/-- The pieces of the stream come out, in order and each once, if and only if every call answers
right for the pieces that had not arrived before it. -/
theorem receive_eq_iff {b : List α} {ps : List (β × List α)} {chunks : List (List α)}
    (hne : ∀ p ∈ ps, p.2 ≠ [])
    (hlate : ∀ p ∈ ps, ∀ t t', s.look (p.2 ++ t) = .wait →
      s.look (p.2 ++ t ++ t') ≠ .hit p.1 p.2.length)
    (hshort : ∀ p ∈ ps.head?, b.length < p.2.length)
    (hstream : b ++ chunks.flatten = content ps) :
    s.receive b chunks = ps ↔ s.Timely b ps chunks := by
  induction chunks generalizing b ps with
  | nil =>
      rw [List.flatten_nil, List.append_nil] at hstream
      have hps : ps = [] := by
        cases ps with
        | nil => rfl
        | cons p ps =>
            have hp := hshort p rfl
            rw [hstream, content_cons, List.length_append] at hp
            omega
      rw [hps]
      exact ⟨fun _ before l f after heq => absurd heq (by simp), fun _ => rfl⟩
  | cons c chunks ih =>
      rw [List.flatten_cons, ← List.append_assoc] at hstream
      have hprefix : b ++ c <+: content ps := hstream ▸ List.prefix_append _ _
      have hstep : s.Settled ps (b ++ c) → (s.receive b (c :: chunks) = ps ↔
          s.Timely b ps (c :: chunks)) := by
        intro hsettled
        obtain ⟨done, left, rest, rfl, hb, hrest, hdrain⟩ :=
          drain_of_settled hne hprefix hsettled
        have hleft : rest ++ chunks.flatten = content left := by
          rw [hb, content_append, List.append_assoc] at hstream
          exact List.append_cancel_left hstream
        have hiff := ih (fun p hp => hne p (List.mem_append_right _ hp))
          (fun p hp => hlate p (List.mem_append_right _ hp)) hrest hleft
        rw [receive, hdrain, List.append_cancel_left_eq, timely_cons hb hshort, hiff]
        exact (and_iff_right hsettled).symm
      constructor
      · intro h
        exact (hstep (settled_of_outputs hne hlate hstream h)).mp h
      · intro h
        exact (hstep (settled_of_timely hshort h)).mpr h

end Splitter

end StreamSplitting

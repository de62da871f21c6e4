import Mathlib.Data.List.Sort
import Roadbook.Proofs.Route.Lookup

/-!
# The turns of a route

Going along the legs, a turn is taken where it is far enough from the one taken before
(`Leg.isChain_turns`), and one that is passed over is too near to the one taken last
(`Leg.mem_or_isPassed`). With the two ends of the route this makes a list whose places and vertices
ascend (`Route.IsLaid.isGuide_turns`), and no other list of maneuvers follows the same rules
(`Route.IsGuide.unique`).
-/

namespace Roadbook

theorem mem_stretches_iff {β : Type} {b c : β} : ∀ {bs : List β},
    (b, c) ∈ stretches bs ↔ ∃ i, bs[i]? = some b ∧ bs[i + 1]? = some c
  | [] => by simp [stretches]
  | [a] => by simp [stretches]
  | a :: a' :: bs => by
    rw [stretches, List.mem_cons, mem_stretches_iff, Prod.mk.injEq]
    constructor
    · rintro (⟨rfl, rfl⟩ | ⟨i, hi⟩)
      · exact ⟨0, rfl, rfl⟩
      · exact ⟨i + 1, hi⟩
    · rintro ⟨_ | i, hb, hc⟩
      · exact .inl ⟨(Option.some.inj hb).symm, (Option.some.inj hc).symm⟩
      · exact .inr ⟨i, hb, hc⟩

theorem map_snd_stretches {β : Type} : ∀ (b : β) (bs : List β),
    (stretches (b :: bs)).map (·.2) = bs
  | _, [] => rfl
  | _, c :: bs => by rw [stretches, List.map_cons, map_snd_stretches c bs]

section Defs

variable {α : Type} [Scalar α] [Geodesy α]

/-- The change of heading from one leg into the next. -/
def Leg.change (inbound outbound : Leg α) : α := headingChange inbound.bearing outbound.bearing

/-- The turn from one leg into the next, whatever its size. -/
def Leg.maneuver (inbound outbound : Leg α) : Maneuver α :=
  ⟨outbound.index, outbound.along, Turn.ofChange (inbound.change outbound), inbound.change outbound⟩

theorem Leg.mem_turns {rules : Config.Turns α} {m : Maneuver α} :
    ∀ {last : α} {pairs : List (Leg α × Leg α)}, m ∈ turns rules last pairs →
      ∃ s ∈ pairs, turn? rules s.1 s.2 = some m
  | _, [], h => by simp [turns] at h
  | last, (inbound, outbound) :: pairs, h => by
    have hlater : ∀ {last}, m ∈ turns rules last pairs →
        ∃ s ∈ (inbound, outbound) :: pairs, turn? rules s.1 s.2 = some m := by
      intro last h
      obtain ⟨s, hs, hturn⟩ := mem_turns h
      exact ⟨s, List.mem_cons_of_mem _ hs, hturn⟩
    rw [turns] at h
    split at h
    · rename_i n hturn
      split_ifs at h
      · exact hlater h
      · rcases List.mem_cons.1 h with rfl | h
        · exact ⟨_, List.mem_cons_self, hturn⟩
        · exact hlater h
    · exact hlater h

end Defs

variable {K : Type} [Field K] [LinearOrder K] [FloorRing K]

attribute [local instance] Scalar.exact instOfNatAtLeastTwo

section Headings

variable [IsStrictOrderedRing K]

theorem Scalar.exact_abs_rem_lt (a : K) {b : K} (hb : 0 < b) : |Scalar.rem a b| < b := by
  have hform : ∀ n : Int, a - b * n = b * (a / b - n) := by
    intro n
    rw [mul_sub, mul_div_cancel₀ a hb.ne']
  have hdef : Scalar.rem a b = a - b * (if 0 ≤ a / b then ⌊a / b⌋ else ⌈a / b⌉ : Int) := rfl
  rw [hdef, hform, abs_mul, abs_of_pos hb]
  refine mul_lt_of_lt_one_right hb (abs_lt.2 ?_)
  split_ifs
  · have hlow := Int.floor_le (a / b)
    have hhigh := Int.lt_floor_add_one (a / b)
    exact ⟨by linarith, by linarith⟩
  · have hlow := Int.le_ceil (a / b)
    have hhigh := Int.ceil_lt_add_one (a / b)
    exact ⟨by linarith, by linarith⟩

theorem headingChange_mem (start finish : K) :
    headingChange start finish ∈ Set.Ioc (-180) 180 := by
  have hrem := abs_lt.1 (Scalar.exact_abs_rem_lt (finish - start) (b := (360 : K)) (by norm_num))
  unfold headingChange
  simp only [Scalar.exact_numeral]
  split_ifs with hright hleft
  · exact ⟨by linarith, by linarith⟩
  · exact ⟨by linarith, by linarith⟩
  · exact ⟨not_le.1 hleft, not_lt.1 hright⟩

end Headings

variable {rules : Config.Turns K} {m : Maneuver K}

/-- The last of the maneuvers before a vertex is too near to it. -/
def Leg.IsPassed (rules : Config.Turns K) (ms : List (Maneuver K)) (outbound : Leg K) : Prop :=
  ∃ prev ∈ ms, prev.index < outbound.index
    ∧ (∀ n ∈ ms, n.index < outbound.index → n.index ≤ prev.index)
    ∧ outbound.along - prev.along < rules.minSpacing

theorem Leg.IsPassed.cons {ms : List (Maneuver K)} {outbound : Leg K}
    (h : IsPassed rules ms outbound) (hafter : ∀ n ∈ ms, m.index < n.index) :
    IsPassed rules (m :: ms) outbound := by
  obtain ⟨last, hlast, hlt, hgreatest, hnear⟩ := h
  refine ⟨last, List.mem_cons_of_mem _ hlast, hlt, fun n hn hnlt => ?_, hnear⟩
  rcases List.mem_cons.1 hn with rfl | hn
  · exact (hafter last hlast).le
  · exact hgreatest n hn hnlt

variable [Geodesy K] {points : List (Point K)} {route : Route K}

/-- Both legs are long enough and the change of heading is large enough for a turn. -/
structure Leg.IsTurn (rules : Config.Turns K) (inbound outbound : Leg K) : Prop where
  inboundLong : rules.minStretch ≤ inbound.length
  outboundLong : rules.minStretch ≤ outbound.length
  sharp : rules.minTurn ≤ |inbound.change outbound|

/-- Each turn taken is far enough from the one before. -/
theorem Leg.isChain_turns : ∀ (pairs : List (Leg K × Leg K)) (prev : Maneuver K),
    (prev :: turns rules prev.along pairs).IsChain
      fun m n => rules.minSpacing ≤ n.along - m.along
  | [], prev => .singleton prev
  | (inbound, outbound) :: pairs, prev => by
    rw [turns]
    split
    · rename_i m hturn
      split_ifs with hnear
      · exact isChain_turns pairs prev
      · exact .cons_cons (not_lt.1 hnear) (isChain_turns pairs m)
    · exact isChain_turns pairs prev

namespace Route

/-- A maneuver is the turn at a vertex between two legs. -/
structure TurnsAt (rules : Config.Turns K) (route : Route K) (m : Maneuver K) (i : Nat)
    (inbound outbound : Leg K) : Prop where
  vertex : m.index = i + 1
  inbound_eq : route.legs[i]? = some inbound
  outbound_eq : route.legs[i + 1]? = some outbound
  isTurn : inbound.IsTurn rules outbound
  along : m.along = outbound.along
  change : m.change = headingChange inbound.bearing outbound.bearing
  change_mem : m.change ∈ Set.Ioc (-180) 180
  turn : m.turn = Turn.ofChange m.change

/-- The maneuvers of a route are its two ends and between them the turns that are far enough from
the maneuver before. -/
structure IsGuide (rules : Config.Turns K) (route : Route K) (ms : List (Maneuver K)) : Prop where
  departs : ms.head? = some ⟨0, 0, .depart, 0⟩
  arrives : ms.getLast? = some ⟨route.legs.length, route.total, .arrive, 0⟩
  ascending : ms.Pairwise fun m n => m.index < n.index ∧ m.along < n.along
  turns : ∀ (j : Nat) (prev m : Maneuver K), ms[j]? = some prev → ms[j + 1]? = some m →
    j + 2 < ms.length → rules.minSpacing ≤ m.along - prev.along
      ∧ ∃ i inbound outbound, route.TurnsAt rules m i inbound outbound
  complete : ∀ (i : Nat) (inbound outbound : Leg K), route.legs[i]? = some inbound →
    route.legs[i + 1]? = some outbound → (∀ m ∈ ms, m.index ≠ i + 1) →
      ¬ inbound.IsTurn rules outbound ∨ Leg.IsPassed rules ms outbound

theorem TurnsAt.eq_of_index {n : Maneuver K} {i j : Nat}
    {inbound outbound inbound' outbound' : Leg K} (hm : route.TurnsAt rules m i inbound outbound)
    (hn : route.TurnsAt rules n j inbound' outbound') (heq : m.index = n.index) : m = n := by
  obtain rfl : i = j := Nat.succ_injective (hm.vertex.symm.trans (heq.trans hn.vertex))
  obtain rfl := Option.some.inj (hm.inbound_eq.symm.trans hn.inbound_eq)
  obtain rfl := Option.some.inj (hm.outbound_eq.symm.trans hn.outbound_eq)
  have hchange : m.change = n.change := hm.change.trans hn.change.symm
  have halong : m.along = n.along := hm.along.trans hn.along.symm
  have hturn : m.turn = n.turn := by rw [hm.turn, hn.turn, hchange]
  cases m
  cases n
  exact (Maneuver.mk.injEq ..).mpr ⟨heq, halong, hturn, hchange⟩

/-- Where a guide starts. -/
def departure : Maneuver K := ⟨0, 0, .depart, 0⟩

/-- Where a guide ends. -/
def arrival (route : Route K) : Maneuver K := ⟨route.legs.length, route.total, .arrive, 0⟩

/-- The turns of a route that its guide has between its ends. -/
def turns (rules : Config.Turns K) (route : Route K) : List (Maneuver K) :=
  Leg.turns rules 0 (stretches route.legs)

omit [Field K] [LinearOrder K] [FloorRing K] [Geodesy K] in
theorem legs_last (route : Route K) : route.legs[route.rest.length]? = some route.last := by
  have hlast : route.legs.getLast? = some route.last := by
    rw [legs, List.getLast?_cons, last, List.getLastD_eq_getLast?]
  rwa [List.getLast?_eq_getElem?] at hlast

theorem maneuvers_eq (h : ofPoints rules points = .ok route) :
    route.maneuvers = departure :: route.turns rules ++ [route.arrival] := by
  have hindex := (isLaid_ofPoints h).numbered _ _ route.legs_last
  have hmaneuvers := (ofPoints_eq_ok_iff.1 h).2.2.1
  unfold maneuversOf at hmaneuvers
  rw [Scalar.exact_zero] at hmaneuvers
  rw [hmaneuvers]
  show _ ++ [(⟨route.last.index + 1, route.total, .arrive, 0⟩ : Maneuver K)] = _
  rw [hindex]
  rfl

theorem isChain_turns (rules : Config.Turns K) (route : Route K) :
    (departure :: route.turns rules).IsChain fun m n => rules.minSpacing ≤ n.along - m.along :=
  Leg.isChain_turns _ departure

namespace IsGuide

variable {ms ns : List (Maneuver K)} (h : route.IsGuide rules ms)

include h

theorem eq_of_index {n : Maneuver K} (hm : m ∈ ms) (hn : n ∈ ms) (heq : m.index = n.index) :
    m = n := by
  obtain ⟨i, hi, rfl⟩ := List.mem_iff_getElem.1 hm
  obtain ⟨j, hj, rfl⟩ := List.mem_iff_getElem.1 hn
  have hpairs := List.pairwise_iff_getElem.1 h.ascending
  rcases lt_trichotomy i j with hij | rfl | hij
  · exact absurd heq (hpairs i j hi hj hij).1.ne
  · rfl
  · exact absurd heq (hpairs j i hj hi hij).1.ne'

/-- A maneuver of a guide is one of its ends or a turn, which has another maneuver before it. -/
theorem mem_cases (hm : m ∈ ms) : m = departure ∨ m = route.arrival
    ∨ ∃ prev ∈ ms, prev.index < m.index ∧ (∀ n ∈ ms, n.index < m.index → n.index ≤ prev.index)
      ∧ rules.minSpacing ≤ m.along - prev.along
      ∧ ∃ i inbound outbound, route.TurnsAt rules m i inbound outbound := by
  obtain ⟨j, hj⟩ := List.mem_iff_getElem?.1 hm
  obtain ⟨hlt, hget⟩ := List.getElem?_eq_some_iff.1 hj
  rcases j with _ | j
  · have hfirst := h.departs
    rw [List.head?_eq_getElem?, hj] at hfirst
    exact .inl (Option.some.inj hfirst)
  rcases (Nat.succ_le_of_lt hlt).eq_or_lt with hlast | hinner
  · have hend := h.arrives
    rw [List.getLast?_eq_getElem?, show ms.length - 1 = j + 1 by omega, hj] at hend
    exact .inr (.inl (Option.some.inj hend))
  · have hprev := List.getElem?_eq_getElem (Nat.lt_of_succ_lt hlt)
    have hpairs := List.pairwise_iff_getElem.1 h.ascending
    obtain ⟨hfar, hturn⟩ := h.turns j _ m hprev hj hinner
    refine .inr (.inr ⟨_, List.mem_of_getElem? hprev, ?_, fun n hn hnlt => ?_, hfar, hturn⟩)
    · rw [← hget]
      exact (hpairs j (j + 1) _ hlt (Nat.lt_succ_self j)).1
    · obtain ⟨k, hk, rfl⟩ := List.mem_iff_getElem.1 hn
      rcases lt_trichotomy k j with hkj | rfl | hkj
      · exact (hpairs k j hk _ hkj).1.le
      · exact le_rfl
      · rw [← hget] at hnlt
        rcases (Nat.succ_le_of_lt hkj).eq_or_lt with rfl | hkj
        · exact absurd hnlt (lt_irrefl _)
        · exact absurd hnlt (hpairs (j + 1) k hlt hk hkj).1.not_gt

/-- Guides that agree on what lies before a maneuver agree on the maneuver. -/
theorem mem_of_mem (hnumbered : route.IsNumbered) (hns : route.IsGuide rules ns)
    (hsame : ∀ n : Maneuver K, n.index < m.index → (n ∈ ms ↔ n ∈ ns)) (hm : m ∈ ms) : m ∈ ns := by
  rcases h.mem_cases hm with rfl | rfl | ⟨prev, hprev, hlt, hgreatest, hfar, i, inbound, outbound,
    hturn⟩
  · exact List.mem_of_head? hns.departs
  · exact List.mem_of_getLast? hns.arrives
  · by_contra hnot
    have hin := (List.getElem?_eq_some_iff.1 hturn.outbound_eq).1
    have hvertex := hturn.vertex
    have hunlisted : ∀ n ∈ ns, n.index ≠ i + 1 := by
      intro n hn heq
      rcases hns.mem_cases hn with rfl | rfl | ⟨-, -, -, -, -, k, before, after, hother⟩
      · exact Nat.succ_ne_zero i heq.symm
      · exact hin.ne' heq
      · rw [hturn.eq_of_index hother (hvertex.trans heq.symm)] at hnot
        exact hnot hn
    have hout : outbound.index = m.index := (hnumbered _ _ hturn.outbound_eq).trans hvertex.symm
    rcases hns.complete i inbound outbound hturn.inbound_eq hturn.outbound_eq hunlisted with
      hslight | ⟨last, hlast, hlastlt, hlastgreatest, hnear⟩
    · exact hslight hturn.isTurn
    · rw [hout] at hlastlt hlastgreatest
      have hle := hgreatest last ((hsame last hlastlt).2 hlast) hlastlt
      have hge := hlastgreatest prev ((hsame prev hlt).1 hprev) hlt
      rw [← h.eq_of_index hprev ((hsame last hlastlt).2 hlast) (hge.antisymm hle),
        ← hturn.along] at hnear
      exact hnear.not_ge hfar

/-- A route has but one guide. -/
theorem unique (hnumbered : route.IsNumbered) (hns : route.IsGuide rules ns) : ms = ns := by
  have hsame : ∀ k (m : Maneuver K), m.index = k → (m ∈ ms ↔ m ∈ ns) := by
    intro k
    induction k using Nat.strong_induction_on with
    | _ k ih =>
      rintro m rfl
      have hbefore : ∀ n : Maneuver K, n.index < m.index → (n ∈ ms ↔ n ∈ ns) :=
        fun n hn => ih n.index hn n rfl
      exact ⟨h.mem_of_mem hnumbered hns hbefore,
        hns.mem_of_mem hnumbered h fun n hn => (hbefore n hn).symm⟩
  have : Std.Irrefl fun m n : Maneuver K => m.index < n.index := ⟨fun _ => lt_irrefl _⟩
  have : Std.Antisymm fun m n : Maneuver K => m.index < n.index :=
    ⟨fun _ _ hmn hnm => absurd hmn hnm.not_gt⟩
  exact (h.ascending.imp And.left).eq_of_mem_iff (hns.ascending.imp And.left)
    fun m => hsame m.index m rfl

end IsGuide

theorem IsLaid.pairwise_index (h : route.IsLaid) :
    (0 :: (stretches route.legs).map (·.2.index)).Pairwise (· < ·) := by
  have hfirst : route.first.index = 0 := h.numbered 0 _ rfl
  have hrest : (stretches route.legs).map (·.2.index) = route.rest.map (·.index) := by
    rw [← map_snd_stretches route.first route.rest, List.map_map]
    rfl
  rw [hrest, ← hfirst, ← List.map_cons, ← legs, List.pairwise_map, List.pairwise_iff_getElem]
  intro i j hi hj hij
  rwa [h.numbered i _ (List.getElem?_eq_getElem hi), h.numbered j _ (List.getElem?_eq_getElem hj)]

end Route

variable [IsStrictOrderedRing K]

namespace Leg

theorem turn?_eq_some_iff {inbound outbound : Leg K} :
    turn? rules inbound outbound = some m
      ↔ IsTurn rules inbound outbound ∧ m = inbound.maneuver outbound := by
  unfold turn?
  dsimp only
  rw [Scalar.exact_abs]
  split_ifs with hshort hslight
  · refine iff_of_false nofun fun h => ?_
    exact hshort.elim h.1.inboundLong.not_gt h.1.outboundLong.not_gt
  · exact iff_of_false nofun fun h => h.1.sharp.not_gt hslight
  · rw [not_or, not_lt, not_lt] at hshort
    rw [Option.some.injEq, eq_comm, and_iff_right ⟨hshort.1, hshort.2, not_lt.1 hslight⟩]
    rfl

/-- The turns taken are at vertices in the order of the legs. -/
theorem map_index_turns_sublist : ∀ (pairs : List (Leg K × Leg K)) (last : K),
    ((turns rules last pairs).map (·.index)).Sublist (pairs.map (·.2.index))
  | [], _ => .slnil
  | (inbound, outbound) :: pairs, last => by
    rw [turns, List.map_cons]
    split
    · rename_i m hturn
      split_ifs
      · exact (map_index_turns_sublist pairs last).cons _
      · rw [(turn?_eq_some_iff.1 hturn).2, List.map_cons]
        exact (map_index_turns_sublist pairs _).cons_cons _
    · exact (map_index_turns_sublist pairs last).cons _

/-- A turn that is not taken is too near to the one taken before it. -/
theorem mem_or_isPassed : ∀ {pairs : List (Leg K × Leg K)} (prev : Maneuver K),
    (prev.index :: pairs.map (·.2.index)).Pairwise (· < ·) → ∀ s ∈ pairs, IsTurn rules s.1 s.2 →
      s.1.maneuver s.2 ∈ turns rules prev.along pairs
        ∨ IsPassed rules (prev :: turns rules prev.along pairs) s.2
  | (inbound, outbound) :: pairs, prev, hasc, s, hs, hturn => by
    obtain ⟨hprev, hpairs⟩ := List.pairwise_cons.1 hasc
    have hskip : (prev.index :: pairs.map (·.2.index)).Pairwise (· < ·) :=
      hasc.sublist ((List.sublist_cons_self _ _).cons_cons _)
    have hfirst : prev.index < outbound.index := hprev _ List.mem_cons_self
    have hlater : ∀ last, ∀ n ∈ turns rules last pairs, outbound.index < n.index := by
      intro last n hn
      have hmem := (map_index_turns_sublist pairs last).subset (List.mem_map_of_mem hn)
      exact (List.pairwise_cons.1 hpairs).1 _ hmem
    rw [turns]
    rcases htaken : turn? rules inbound outbound with _ | m
    · rcases List.mem_cons.1 hs with rfl | hs
      · rw [turn?_eq_some_iff.2 ⟨hturn, rfl⟩] at htaken
        cases htaken
      · exact mem_or_isPassed prev hskip s hs hturn
    obtain rfl := (turn?_eq_some_iff.1 htaken).2
    dsimp only
    split_ifs with hnear
    · rcases List.mem_cons.1 hs with rfl | hs
      · refine .inr ⟨prev, List.mem_cons_self, hfirst, fun n hn hlt => ?_, hnear⟩
        rcases List.mem_cons.1 hn with rfl | hn
        · exact le_rfl
        · exact absurd hlt (hlater _ n hn).not_gt
      · exact mem_or_isPassed prev hskip s hs hturn
    · rcases List.mem_cons.1 hs with rfl | hs
      · exact .inl List.mem_cons_self
      · have hafter : ∀ n ∈ inbound.maneuver outbound :: turns rules outbound.along pairs,
            prev.index < n.index :=
          List.forall_mem_cons.2 ⟨hfirst, fun n hn => hfirst.trans (hlater _ n hn)⟩
        exact (mem_or_isPassed (inbound.maneuver outbound) hpairs s hs hturn).imp
          (List.mem_cons_of_mem _) fun hpassed => hpassed.cons hafter

end Leg

namespace Route

namespace IsLaid

variable (h : route.IsLaid)

include h

theorem turnsAt_of_mem (hm : m ∈ route.turns rules) :
    ∃ i inbound outbound, route.TurnsAt rules m i inbound outbound := by
  obtain ⟨⟨inbound, outbound⟩, hs, htaken⟩ := Leg.mem_turns hm
  obtain ⟨i, hin, hout⟩ := mem_stretches_iff.1 hs
  obtain ⟨hturn, rfl⟩ := Leg.turn?_eq_some_iff.1 htaken
  exact ⟨i, inbound, outbound, h.numbered _ _ hout, hin, hout, hturn, rfl, rfl,
    headingChange_mem _ _, rfl⟩

theorem pairwise_turns (hspacing : 0 < rules.minSpacing) :
    (departure :: route.turns rules).Pairwise fun m n => m.index < n.index ∧ m.along < n.along := by
  have hindices : (0 :: (route.turns rules).map (·.index)).Pairwise (· < ·) :=
    h.pairwise_index.sublist ((Leg.map_index_turns_sublist _ _).cons_cons 0)
  have hindex : (departure :: route.turns rules).Pairwise fun m n => m.index < n.index :=
    List.pairwise_map.1 hindices
  have halong : (departure :: route.turns rules).IsChain fun m n => m.along < n.along :=
    (isChain_turns rules route).imp fun m n hle => sub_pos.1 (hspacing.trans_le hle)
  have : IsTrans (Maneuver K) fun m n => m.along < n.along := ⟨fun _ _ _ => lt_trans⟩
  exact hindex.and (List.isChain_iff_pairwise.1 halong)

variable (hground : ∀ a b : Point K, 0 ≤ Geodesy.distance a b) (hstretch : 0 < rules.minStretch)
  (hlong : 0 < route.total)

include hground hstretch hlong

/-- The legs after a turn have a length, so the end of the route is further on. -/
theorem before_arrival (hm : m ∈ departure :: route.turns rules) :
    m.index < route.arrival.index ∧ m.along < route.arrival.along := by
  rcases List.mem_cons.1 hm with rfl | hm
  · exact ⟨Nat.succ_pos _, hlong⟩
  · obtain ⟨i, inbound, outbound, hturn⟩ := h.turnsAt_of_mem hm
    have hlength := hstretch.trans_le hturn.isTurn.outboundLong
    have hend : outbound.alongEnd ≤ route.total :=
      (h.distances_mem hground (List.mem_of_getElem? (h.distances_succ hturn.outbound_eq))).2
    rw [hturn.vertex, hturn.along]
    exact ⟨(List.getElem?_eq_some_iff.1 hturn.outbound_eq).1,
      (lt_add_of_pos_right _ hlength).trans_le hend⟩

theorem isGuide_turns (hspacing : 0 < rules.minSpacing) :
    route.IsGuide rules (departure :: route.turns rules ++ [route.arrival]) := by
  have hchain := isChain_turns rules route
  refine ⟨rfl, List.getLast?_concat, ?_, fun j prev m hprev hm hj => ?_,
    fun i inbound outbound hin hout hunlisted => ?_⟩
  · refine List.pairwise_append.2 ⟨h.pairwise_turns hspacing, List.pairwise_singleton _ _,
      fun m hm n hn => ?_⟩
    rw [List.mem_singleton.1 hn]
    exact h.before_arrival hground hstretch hlong hm
  · have hlt : j + 1 < (departure :: route.turns rules).length := by simpa using hj
    rw [List.getElem?_append_left (by omega)] at hprev
    rw [List.getElem?_append_left hlt] at hm
    obtain ⟨_, rfl⟩ := List.getElem?_eq_some_iff.1 hprev
    obtain ⟨_, rfl⟩ := List.getElem?_eq_some_iff.1 hm
    exact ⟨List.isChain_iff_getElem.1 hchain j hlt, h.turnsAt_of_mem (List.getElem_mem _)⟩
  · have hindex := h.numbered _ _ hout
    rw [or_iff_not_imp_left, not_not]
    intro hturn
    rcases Leg.mem_or_isPassed departure h.pairwise_index (inbound, outbound)
      (mem_stretches_iff.2 ⟨i, hin, hout⟩) hturn with hmem | ⟨prev, hprev, hlt, hgreatest, hnear⟩
    · exact absurd hindex (hunlisted _ (List.mem_append_left _ (List.mem_cons_of_mem _ hmem)))
    · refine ⟨prev, List.mem_append_left _ hprev, hlt, fun n hn hnlt => ?_, hnear⟩
      rcases List.mem_append.1 hn with hn | hn
      · exact hgreatest n hn hnlt
      · rw [List.mem_singleton.1 hn, hindex] at hnlt
        exact absurd (List.getElem?_eq_some_iff.1 hout).1 hnlt.not_gt

end IsLaid

/-- On a ground without negative distances, and with a spacing and a least length of the legs at a
turn, the maneuvers of a route are the one list that starts and ends with the route, goes on in
order, has turns between its ends that are sharp enough, lie between legs that are long enough and
are far enough from the maneuver before, and leaves out only turns that are not. -/
theorem isGuide_iff (h : ofPoints rules points = .ok route)
    (hground : ∀ a b : Point K, 0 ≤ Geodesy.distance a b) (hspacing : 0 < rules.minSpacing)
    (hstretch : 0 < rules.minStretch) (ms : List (Maneuver K)) :
    route.IsGuide rules ms ↔ ms = route.maneuvers := by
  have hlaid := isLaid_ofPoints h
  have hlong : 0 < route.total := by
    have hpositive := (ofPoints_eq_ok_iff.1 h).2.2.2
    rwa [Scalar.exact_zero, not_le] at hpositive
  have hguide := hlaid.isGuide_turns hground hstretch hlong hspacing
  rw [maneuvers_eq h]
  constructor
  · intro hms
    exact hms.unique hlaid.numbered hguide
  · rintro rfl
    exact hguide

/-- On the road with bends the guide has the turn at the second bend. At the first one the leg
between the equal points is too short for a turn. -/
theorem isGuide_iff_bends : Trial.bent.IsGuide .standard
    [⟨0, 0, .depart, 0⟩, ⟨3, 22239 / 100, .right, 90⟩, ⟨4, 66717 / 200, .arrive, 0⟩] := by
  have hspacing : (0 : ℚ) < Config.Turns.standard.minSpacing := by decide +kernel
  have hstretch : (0 : ℚ) < Config.Turns.standard.minStretch := by decide +kernel
  exact (isGuide_iff Trial.ofPoints_bends distance_rat_nonneg hspacing hstretch _).2 rfl

end Route

end Roadbook

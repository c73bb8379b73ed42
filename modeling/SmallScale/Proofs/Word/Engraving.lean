import SmallScale.Proofs.Word.Field

namespace SmallScale
namespace Word

/-!
# Engraving round a word

A patch is written bit by bit in place: its first bit at the position it is
engraved at, the others after it, and a negative position names the bit that
many places before the end of the word.  What is proved about this is one
description of the patched word.  Count from the bit the patch starts at,
upwards and round the end of the word: the bits at a distance below the
length of the patch are those of the patch, and no other bit changes.

The distance of a bit determines the one stroke that can meet it, so that no
bit is written twice, even where the patch crosses the end of the word or is
as long as the word.  What is said below about reading a patch back, about
engraving a word's own bits and about two patches in either order is read off
this description.
-/

/-! ## Strokes -/

/-- The bit of a word that a position names, counted from either end. -/
def place (width : Nat) (position : Int) : Nat :=
  (if position < 0 then position + width else position).toNat

/-- The single bits a patch writes, each with its place, in the order of
writing. -/
def strokes (width : Nat) (start : Int) (patch : List Bool) : List (Nat × Bool) :=
  patch.mapIdx fun offset bit => (place width (start + offset), bit)

/-- The bits of a word after some strokes, one after the other. -/
def inscribed (bits : List Bool) (done : List (Nat × Bool)) : List Bool :=
  done.foldl (fun bits stroke => bits.set stroke.1 stroke.2) bits

/-- Write a patch over the word in place, after the one check at the start. -/
def engraveInPlace (w : Word) (start : Int) (patch : Word) : Word × Except BitError Unit :=
  if w.Admits start patch then
    (⟨inscribed w.bits (strokes w.length start patch.bits)⟩, .ok ())
  else (w, .error (.outOfRange start (start + patch.length) w.length))

/-- How far a bit lies behind the start of a patch, going upwards and round
the end of the word. -/
def distance (width : Nat) (start : Int) (position : Nat) : Nat :=
  ((position - start) % width).toNat

@[simp] theorem length_inscribed (bits : List Bool) (done : List (Nat × Bool)) :
    (inscribed bits done).length = bits.length := by
  induction done generalizing bits with
  | nil => rfl
  | cons stroke others continued =>
    rw [inscribed, List.foldl_cons]
    exact (continued _).trans List.length_set

/-- Strokes elsewhere leave a bit as it was. -/
theorem getElem?_inscribed_of_missed {done : List (Nat × Bool)} {position : Nat}
    (missed : ∀ stroke ∈ done, stroke.1 ≠ position) (bits : List Bool) :
    (inscribed bits done)[position]? = bits[position]? := by
  induction done generalizing bits with
  | nil => rfl
  | cons stroke others continued =>
    rw [inscribed, List.foldl_cons]
    refine (continued (fun other among => missed other (.tail _ among)) _).trans ?_
    exact List.getElem?_set_ne (missed stroke (.head _))

/-- Among strokes at different places, each bit met is the one its stroke
writes. -/
theorem getElem?_inscribed_of_mem {done : List (Nat × Bool)} {position : Nat} {bit : Bool}
    (apart : (done.map Prod.fst).Nodup) (met : (position, bit) ∈ done) {bits : List Bool}
    (inside : position < bits.length) :
    (inscribed bits done)[position]? = some bit := by
  induction done generalizing bits with
  | nil => cases met
  | cons stroke others continued =>
    rw [List.map_cons, List.nodup_cons] at apart
    rw [inscribed, List.foldl_cons]
    rcases List.mem_cons.1 met with rfl | later
    · have missed : ∀ other ∈ others, other.1 ≠ position := by
        intro other among same
        exact apart.1 (List.mem_map.2 ⟨other, among, same⟩)
      exact (getElem?_inscribed_of_missed missed _).trans (List.getElem?_set_self inside)
    · apply continued apart.2 later
      rwa [List.length_set]

/-! ## Places and distances -/

/-- A bit and the start of a patch differ by the distance, or by one turn more
or less. -/
theorem distance_cases {width position : Nat} {start : Int} (inside : position < width)
    (fromFront : -(width : Int) ≤ start) (toEnd : start ≤ width) :
    distance width start position < width ∧
      (position - start = distance width start position ∨
        position - start = distance width start position + width ∨
        position - start = (distance width start position : Int) - width) := by
  -- Both lie within one width of zero, so one turn at most is between them.
  have turns : ((position : Int) - start) % width = position - start ∨
      ((position : Int) - start) % width = position - start - width ∨
      ((position : Int) - start) % width = position - start + width := by
    rcases Int.lt_or_le ((position : Int) - start) 0 with behind | ahead
    · refine .inr (.inr ?_)
      rw [← Int.add_emod_right]
      exact Int.emod_eq_of_lt (by omega) (by omega)
    · rcases Int.lt_or_le ((position : Int) - start) width with near | far
      · exact .inl (Int.emod_eq_of_lt ahead near)
      · refine .inr (.inl ?_)
        rw [← Int.sub_emod_right]
        exact Int.emod_eq_of_lt (by omega) (by omega)
  have positive : (0 : Int) < width := by omega
  have low := Int.emod_nonneg ((position : Int) - start) (Int.ne_of_gt positive)
  have high := Int.emod_lt_of_pos ((position : Int) - start) positive
  unfold distance
  omega

/-- In an admitted patch the bit at some offset is written at the place that
has this offset for its distance. -/
theorem place_eq_iff {width position offset : Nat} {start : Int} (inside : position < width)
    (fromFront : -(width : Int) ≤ start) (toEnd : start + offset < width)
    (short : offset < width) :
    place width (start + offset) = position ↔ distance width start position = offset := by
  have around := distance_cases inside fromFront (by omega)
  unfold place
  split <;> omega

theorem place_lt {width : Nat} {position : Int} (fromFront : -(width : Int) ≤ position)
    (toEnd : position < width) : place width position < width := by
  unfold place
  split <;> omega

theorem getElem?_strokes (width : Nat) (start : Int) (patch : List Bool) (offset : Nat) :
    (strokes width start patch)[offset]? =
      patch[offset]?.map fun bit => (place width (start + offset), bit) := by
  rw [strokes, List.getElem?_mapIdx]

@[simp] theorem length_strokes (width : Nat) (start : Int) (patch : List Bool) :
    (strokes width start patch).length = patch.length :=
  List.length_mapIdx

variable {w patch : Word} {start : Int}

/-- A stroke of an admitted patch hits a bit exactly if the patch has a bit at
the distance of that place, and writes that one. -/
theorem mem_strokes_iff (admitted : w.Admits start patch) {position : Nat} {bit : Bool}
    (inside : position < w.length) :
    (position, bit) ∈ strokes w.length start patch.bits ↔
      patch.bits[distance w.length start position]? = some bit := by
  obtain ⟨fromFront, toEnd, short⟩ := admitted
  unfold length at *
  rw [List.mem_iff_getElem?]
  constructor
  · rintro ⟨offset, found⟩
    rw [getElem?_strokes, Option.map_eq_some_iff] at found
    obtain ⟨written, read, same⟩ := found
    obtain ⟨within, -⟩ := List.getElem?_eq_some_iff.1 read
    obtain ⟨there, rfl⟩ := Prod.mk.inj same
    rw [(place_eq_iff inside fromFront (by omega) (by omega)).1 there]
    exact read
  · intro read
    obtain ⟨within, -⟩ := List.getElem?_eq_some_iff.1 read
    refine ⟨distance w.bits.length start position, ?_⟩
    rw [getElem?_strokes, read, Option.map_some,
      (place_eq_iff inside fromFront (by omega) (by omega)).2 rfl]

/-- No bit is written twice: the strokes of an admitted patch are at different
places. -/
theorem nodup_strokes (admitted : w.Admits start patch) :
    ((strokes w.length start patch.bits).map Prod.fst).Nodup := by
  obtain ⟨fromFront, toEnd, short⟩ := admitted
  unfold length at *
  apply List.pairwise_iff_getElem.2
  intro first second firstInside secondInside before
  simp only [List.length_map, length_strokes] at firstInside secondInside
  simp only [strokes, List.getElem_map, List.getElem_mapIdx]
  have inside : place w.bits.length (start + first) < w.bits.length :=
    place_lt (by omega) (by omega)
  intro same
  have atFirst := (place_eq_iff inside fromFront (by omega) (by omega)).1 rfl
  have atSecond := (place_eq_iff inside fromFront (by omega) (by omega)).1 same.symm
  omega

theorem strokes_inside (admitted : w.Admits start patch) :
    ∀ stroke ∈ strokes w.length start patch.bits, stroke.1 < w.length := by
  obtain ⟨fromFront, toEnd, short⟩ := admitted
  unfold length at *
  intro stroke written
  obtain ⟨offset, within, rfl⟩ := List.mem_mapIdx.1 written
  exact place_lt (by omega) (by omega)

/-! ## The patched word -/

/-- The bits of a word after a patch, position by position. -/
def patchedBit (w patch : Word) (start : Int) (position : Nat) : Option Bool :=
  if distance w.length start position < patch.length then
    patch.bit? (distance w.length start position)
  else w.bit? position

/-- The bits of a word written in place. -/
theorem getElem?_inscribed (admitted : w.Admits start patch) {position : Nat}
    (inside : position < w.length) :
    (inscribed w.bits (strokes w.length start patch.bits))[position]? =
      patchedBit w patch start position := by
  unfold patchedBit bit?
  split
  · rename_i near
    have read := List.getElem?_eq_getElem near
    rw [read]
    apply getElem?_inscribed_of_mem (nodup_strokes admitted) _ inside
    exact (mem_strokes_iff admitted inside).2 read
  · rename_i far
    apply getElem?_inscribed_of_missed
    rintro ⟨place, bit⟩ written rfl
    have read := (mem_strokes_iff admitted inside).1 written
    obtain ⟨near, -⟩ := List.getElem?_eq_some_iff.1 read
    exact far near

/-- The bits of a word under the two runs of a patch. -/
theorem getElem?_engraved (admitted : w.Admits start patch) {position : Nat}
    (inside : position < w.length) :
    (engraved w.bits start patch.bits)[position]? = patchedBit w patch start position := by
  obtain ⟨fromFront, toEnd, short⟩ := admitted
  have around := distance_cases inside fromFront (by omega)
  unfold patchedBit engraved
  unfold length bit? at *
  split
  · rw [getElem?_splice (by omega)]
    by_cases under : distance w.bits.length start position < patch.bits.length
    · rw [if_pos (by omega), if_pos under]
      congr 1
      omega
    · rw [if_neg (by omega), if_neg under]
  · have back : (patch.bits.take start.natAbs).length ≤ start.natAbs :=
      List.length_take_le _ _
    have firstRun : w.bits.length - start.natAbs + (patch.bits.take start.natAbs).length ≤
        w.bits.length := by
      omega
    have secondRun : 0 + (patch.bits.drop start.natAbs).length ≤
        (splice w.bits (w.bits.length - start.natAbs) (patch.bits.take start.natAbs)).length := by
      rw [length_splice firstRun, List.length_drop]
      omega
    rw [getElem?_splice secondRun, getElem?_splice firstRun, List.length_drop, List.length_take,
      List.getElem?_drop, List.getElem?_take]
    -- The second run is the part of the patch behind the end of the word.
    by_cases wrapped : position < patch.bits.length - start.natAbs
    · rw [if_pos (by omega), if_pos (by omega)]
      congr 1
      omega
    · rw [if_neg (by omega)]
      by_cases under : distance w.bits.length start position < patch.bits.length
      · rw [if_pos (by omega), if_pos (by omega), if_pos under]
        congr 1
        omega
      · rw [if_neg (by omega), if_neg under]

/-- Both ways of writing an admitted patch give the same bits. -/
theorem inscribed_eq_engraved (admitted : w.Admits start patch) :
    inscribed w.bits (strokes w.length start patch.bits) = engraved w.bits start patch.bits := by
  have sameLength : (engraved w.bits start patch.bits).length = w.bits.length :=
    length_engraved admitted
  apply List.ext_getElem?
  intro position
  rcases Nat.lt_or_ge position w.length with inside | outside
  · rw [getElem?_inscribed admitted inside, getElem?_engraved admitted inside]
  · unfold length at outside
    rw [List.getElem?_eq_none (by rw [length_inscribed]; exact outside),
      List.getElem?_eq_none (by rw [sameLength]; exact outside)]

theorem engrave_eq_ok_iff {result : Word} :
    w.engrave start patch = .ok result ↔
      w.Admits start patch ∧ ⟨engraved w.bits start patch.bits⟩ = result := by
  unfold engrave
  split <;> simp_all only [Except.ok.injEq, reduceCtorEq, true_and, false_and]

/-- Writing in place is engraving: it leaves the engraved word, or the word as
it was. -/
theorem engraveInPlace_eq (w patch : Word) (start : Int) :
    w.engraveInPlace start patch =
      match w.engrave start patch with
      | .ok result => (result, .ok ())
      | .error e => (w, .error e) := by
  unfold engraveInPlace engrave
  by_cases admitted : w.Admits start patch
  · rw [if_pos admitted, if_pos admitted, inscribed_eq_engraved admitted]
  · rw [if_neg admitted, if_neg admitted]

/-- What becomes of a word under a patch engraved at `start`. -/
structure SplicedRound (w patch : Word) (start : Int) (result : Word) : Prop where
  length_eq : result.length = w.length
  /-- A bit less than the length of the patch behind its start is the bit of
  the patch at that distance, and every other bit is as it was. -/
  bit_eq : ∀ position : Nat, position < w.length →
    result.bit? position =
      if (position - start) % w.length < patch.length then
        patch.bit? ((position - start) % w.length).toNat
      else w.bit? position
  /-- The bits of the patch are written once each, in their order. -/
  written : (strokes w.length start patch.bits).map Prod.snd = patch.bits
  /-- No bit of the word is written twice. -/
  once : ((strokes w.length start patch.bits).map Prod.fst).Nodup
  inside : ∀ stroke ∈ strokes w.length start patch.bits, stroke.1 < w.length

theorem map_snd_strokes (width : Nat) (start : Int) (patch : List Bool) :
    (strokes width start patch).map Prod.snd = patch := by
  apply List.ext_getElem?
  intro offset
  rw [List.getElem?_map, getElem?_strokes, Option.map_map]
  exact Option.map_id'

theorem splicedRound_of_engrave {result : Word} (done : w.engrave start patch = .ok result) :
    SplicedRound w patch start result := by
  obtain ⟨admitted, rfl⟩ := engrave_eq_ok_iff.1 done
  refine ⟨length_engraved admitted, ?_, map_snd_strokes _ _ _, nodup_strokes admitted,
    strokes_inside admitted⟩
  intro position inside
  have turning : 0 ≤ ((position : Int) - start) % w.length :=
    Int.emod_nonneg _ (by omega)
  refine (getElem?_engraved admitted inside).trans ?_
  unfold patchedBit distance
  by_cases under : ((position : Int) - start) % w.length < patch.length
  · rw [if_pos under, if_pos (by omega)]
  · rw [if_neg under, if_neg (by omega)]

/-! ## Patches from the front -/

/-- From 0 on a patch is admitted if it is inside the word. -/
theorem admits_natCast_iff {origin : Nat} :
    w.Admits origin patch ↔ origin + patch.length ≤ w.length := by
  unfold Admits
  omega

/-- From 0 on a patch is written over one run of bits. -/
theorem engrave_natCast_eq_ok_iff {origin : Nat} {result : Word} :
    w.engrave origin patch = .ok result ↔
      origin + patch.length ≤ w.length ∧ w.overwrite origin patch = result := by
  rw [engrave_eq_ok_iff, admits_natCast_iff, engraved, if_pos (Int.natCast_nonneg origin),
    Int.toNat_natCast]
  rfl

theorem slice_eq_ok_iff {origin count : Nat} {run : Word} :
    w.slice origin count = .ok run ↔ origin + count ≤ w.length ∧ w.extract origin count = run := by
  unfold slice
  split <;> simp_all only [Except.ok.injEq, reduceCtorEq, true_and, false_and]

/-- A patch engraved from 0 on is read back from there. -/
theorem slice_of_engrave {origin : Nat} {result : Word}
    (done : w.engrave origin patch = .ok result) :
    result.slice origin patch.length = .ok patch := by
  obtain ⟨inside, rfl⟩ := engrave_natCast_eq_ok_iff.1 done
  apply slice_eq_ok_iff.2
  constructor
  · rwa [length_overwrite inside]
  · exact extract_overwrite_self inside

/-- A run of a word's own bits written where it is changes nothing. -/
theorem overwrite_extract_self {origin count : Nat} (inside : origin + count ≤ w.length) :
    w.overwrite origin (w.extract origin count) = w := by
  have size : (w.extract origin count).bits.length = count := length_extract inside
  have fits : origin + (w.extract origin count).bits.length ≤ w.bits.length := by
    rwa [size]
  apply ext_bits
  intro position
  rw [overwrite, getElem?_splice fits, size]
  split
  · rename_i under
    rw [getElem?_extract, if_pos (by omega)]
    congr 1
    omega
  · rfl

/-- Of two patches of one length at one place the second one stays. -/
theorem overwrite_overwrite {other : Word} {origin : Nat}
    (inside : origin + patch.length ≤ w.length) (sameLength : other.length = patch.length) :
    (w.overwrite origin patch).overwrite origin other = w.overwrite origin other := by
  have otherInside : origin + other.bits.length ≤ w.bits.length := by
    rwa [← sameLength] at inside
  apply ext_bits
  intro position
  unfold overwrite length at *
  rw [getElem?_splice (by rwa [length_splice inside]), getElem?_splice inside,
    getElem?_splice otherInside]
  by_cases under : origin ≤ position ∧ position < origin + other.bits.length
  · rw [if_pos under, if_pos under]
  · rw [if_neg under, if_neg under, if_neg (sameLength ▸ under)]

/-- A word's own bits engraved where they are change nothing. -/
theorem engrave_own_slice {origin count : Nat} {own : Word}
    (taken : w.slice origin count = .ok own) : w.engrave origin own = .ok w := by
  obtain ⟨inside, rfl⟩ := slice_eq_ok_iff.1 taken
  apply engrave_natCast_eq_ok_iff.2
  constructor
  · rwa [length_extract inside]
  · exact overwrite_extract_self inside

/-- Two runs of bits with no position in both. -/
def Apart (first firstCount second secondCount : Nat) : Prop :=
  ∀ position, ¬ ((first ≤ position ∧ position < first + firstCount) ∧
    second ≤ position ∧ position < second + secondCount)

theorem overwrite_comm {other : Word} {first second : Nat}
    (firstInside : first + patch.length ≤ w.length)
    (secondInside : second + other.length ≤ w.length)
    (apart : Apart first patch.length second other.length) :
    (w.overwrite first patch).overwrite second other =
      (w.overwrite second other).overwrite first patch := by
  apply ext_bits
  intro position
  have notBoth := apart position
  unfold overwrite length at *
  rw [getElem?_splice (by rwa [length_splice firstInside]), getElem?_splice firstInside,
    getElem?_splice (by rwa [length_splice secondInside]), getElem?_splice secondInside]
  by_cases underFirst : first ≤ position ∧ position < first + patch.bits.length
  · have beside : ¬ (second ≤ position ∧ position < second + other.bits.length) :=
      fun underSecond => notBoth ⟨underFirst, underSecond⟩
    rw [if_neg beside, if_pos underFirst, if_pos underFirst]
  · rw [if_neg underFirst, if_neg underFirst]

/-- A patch from 0 on leaves the patched word if it is inside, and otherwise
the word as it was. -/
theorem engraveInPlace_natCast (w patch : Word) (origin : Nat) :
    w.engraveInPlace origin patch =
      if origin + patch.length ≤ w.length then (w.overwrite origin patch, .ok ())
      else (w, .error (.outOfRange origin (origin + patch.length) w.length)) := by
  rw [engraveInPlace_eq]
  by_cases inside : origin + patch.length ≤ w.length
  · rw [if_pos inside, engrave_natCast_eq_ok_iff.2 ⟨inside, rfl⟩]
  · have refused : ¬ w.Admits origin patch := fun admitted => inside (admits_natCast_iff.1 admitted)
    rw [if_neg inside, engrave, if_neg refused]

/-- Two patches from 0 on into separate runs of bits may change places: each is
accepted or refused as it would be alone, and the word after both is the
same. -/
theorem engraveInPlace_comm {other : Word} {first second : Nat}
    (apart : Apart first patch.length second other.length) :
    ∃ final, (w.engraveInPlace first patch).1.engraveInPlace second other =
        (final, (w.engraveInPlace second other).2) ∧
      (w.engraveInPlace second other).1.engraveInPlace first patch =
        (final, (w.engraveInPlace first patch).2) := by
  simp only [engraveInPlace_natCast]
  by_cases firstInside : first + patch.length ≤ w.length
  · by_cases secondInside : second + other.length ≤ w.length
    · refine ⟨(w.overwrite first patch).overwrite second other, ?_, ?_⟩
      · simp only [if_pos firstInside, length_overwrite firstInside, if_pos secondInside]
      · simp only [if_pos secondInside, length_overwrite secondInside, if_pos firstInside,
          overwrite_comm firstInside secondInside apart]
    · refine ⟨w.overwrite first patch, ?_, ?_⟩
      · simp only [if_pos firstInside, length_overwrite firstInside, if_neg secondInside]
      · simp only [if_neg secondInside, if_pos firstInside]
  · by_cases secondInside : second + other.length ≤ w.length
    · refine ⟨w.overwrite second other, ?_, ?_⟩
      · simp only [if_neg firstInside, if_pos secondInside]
      · simp only [if_pos secondInside, length_overwrite secondInside, if_neg firstInside]
    · refine ⟨w, ?_, ?_⟩
      · simp only [if_neg firstInside, if_neg secondInside]
      · simp only [if_neg secondInside, if_neg firstInside]

/-- The positions a patch is accepted at, and what it then does.  An accepted
patch is laid round the word from its start on; a refused one leaves the word
as it was.  From 0 on a patch can be read back, a word's own bits change
nothing, and two patches into separate runs of bits may change places. -/
theorem engrave_splices_round (w patch : Word) (start : Int) :
    ((∃ result, w.engrave start patch = .ok result) ↔
      -(w.length : Int) ≤ start ∧ start + patch.length ≤ w.length ∧
        patch.length ≤ w.length) ∧
    (∀ error, w.engrave start patch = .error error →
      w.engraveInPlace start patch = (w, .error error)) ∧
    (∀ result, w.engrave start patch = .ok result →
      w.engraveInPlace start patch = (result, .ok ()) ∧
      SplicedRound w patch start result ∧
      (0 ≤ start → result.slice start.toNat patch.length = .ok patch)) ∧
    (∀ (origin count : Nat) (own : Word), w.slice origin count = .ok own →
      w.engrave origin own = .ok w) ∧
    (∀ (other : Word) (first second : Nat), Apart first patch.length second other.length →
      ∃ final, (w.engraveInPlace first patch).1.engraveInPlace second other =
          (final, (w.engraveInPlace second other).2) ∧
        (w.engraveInPlace second other).1.engraveInPlace first patch =
          (final, (w.engraveInPlace first patch).2)) := by
  refine ⟨?_, ?_, ?_, fun _ _ _ => engrave_own_slice, fun _ _ _ => engraveInPlace_comm⟩
  · constructor
    · rintro ⟨result, done⟩
      exact (engrave_eq_ok_iff.1 done).1
    · intro admitted
      exact ⟨_, engrave_eq_ok_iff.2 ⟨admitted, rfl⟩⟩
  · intro error refused
    rw [engraveInPlace_eq, refused]
  · intro result done
    refine ⟨by rw [engraveInPlace_eq, done], splicedRound_of_engrave done, ?_⟩
    intro fromZero
    apply slice_of_engrave
    rwa [Int.toNat_of_nonneg fromZero]

/-- A patch as long as the word, engraved two bits before its end: the first two
bits of the patch are the last ones of the word, and the others its first
ones. -/
theorem engrave_splices_round_acrossTheEnd :
    ∃ result, engrave ⟨[true, true, true, true]⟩ (-2) ⟨[false, false, true, false]⟩ = .ok result ∧
      engraveInPlace ⟨[true, true, true, true]⟩ (-2) ⟨[false, false, true, false]⟩ =
        (result, .ok ()) ∧
      SplicedRound ⟨[true, true, true, true]⟩ ⟨[false, false, true, false]⟩ (-2) result ∧
      result.bits = [true, false, false, false] := by
  have splices := engrave_splices_round ⟨[true, true, true, true]⟩ ⟨[false, false, true, false]⟩ (-2)
  rcases splices.1.mpr (by decide) with ⟨result, done⟩
  rcases splices.2.2.1 result done with ⟨inPlace, round, _⟩
  refine ⟨result, done, inPlace, round, ?_⟩
  cases done
  rfl

end Word
end SmallScale

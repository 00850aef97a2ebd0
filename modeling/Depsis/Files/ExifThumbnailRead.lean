import Depsis.Files.ExifThumbnail

/-! Nothing is read outside the buffer, what is handed out lies in it, and what a photograph names
as its thumbnail is found.
-/
namespace Depsis.Files.ExifThumbnail
open Depsis.Foundation.Bytes List

structure Inside (buffer : List UInt8) (found : EmbeddedThumbnail) : Prop where
  lies : ∃ place, Lies buffer place found.bytes
  short : found.bytes.length ≤ MAX_THUMBNAIL
  image : found.bytes.take 2 = [0xff,SOI]
  turned : 1 ≤ found.orientation ∧ found.orientation ≤ 8

def Sound (buffer : List UInt8) (reading : Except Fault (Option EmbeddedThumbnail)) : Prop :=
  ∃ answer, reading = .ok answer ∧ ∀ found, answer = some found → Inside buffer found

@[simp] theorem ok_bind {α β : Type} (value : α) (next : α → Except Fault β) : (Except.ok value >>= next) = next value := rfl

theorem sound_none (buffer : List UInt8) : Sound buffer (.ok none) := ⟨none,rfl,nofun⟩

variable {buffer tiff : List UInt8} {isLittle : Bool} {place value : Nat}

theorem Sound.lies {content : List UInt8} {reading : Except Fault (Option EmbeddedThumbnail)}
    (lies : Lies buffer place content) (sound : Sound content reading) : Sound buffer reading := by
  obtain ⟨answer,read,inside⟩ := sound
  refine ⟨answer,read,fun found same => ?_⟩
  obtain ⟨⟨offset,inner⟩,short,image,turned⟩ := inside found same
  exact ⟨⟨place + offset,lies.trans inner⟩,short,image,turned⟩

theorem index_ok (fits : place < buffer.length) : index buffer place = .ok buffer[place] := by
  rw [index,getElem?_eq_getElem fits]

theorem readUInt_ok {width : Nat} (fits : place + width ≤ buffer.length) :
    readUInt isLittle width buffer place = .ok (numberIn isLittle (slice buffer place (place + width))) := if_pos fits

theorem unsigned_total (isLittle : Bool) (width : Nat) (tiff : List UInt8) (place : Nat) :
    ∃ value, unsigned isLittle width tiff place = .ok value := by
  rw [unsigned]
  split
  · exact ⟨none,rfl⟩
  · next fits =>
    rw [readUInt_ok (Nat.le_of_not_lt fits)]
    exact ⟨_,rfl⟩

theorem u16_total (isLittle : Bool) (tiff : List UInt8) (place : Nat) : ∃ value, u16 isLittle tiff place = .ok value :=
  unsigned_total isLittle 2 tiff place

theorem u32_total (isLittle : Bool) (tiff : List UInt8) (place : Nat) : ∃ value, u32 isLittle tiff place = .ok value :=
  unsigned_total isLittle 4 tiff place

theorem tagLoop_total (isLittle : Bool) (tiff : List UInt8) (ifd tag left i : Nat) :
    ∃ value, tagLoop isLittle tiff ifd tag left i = .ok value := by
  induction left generalizing i with
  | zero => exact ⟨none,rfl⟩
  | succ left ih =>
    obtain ⟨found,eqTag⟩ := u16_total isLittle tiff (ifd + 2 + i * 12)
    obtain ⟨type,eqType⟩ := u16_total isLittle tiff (ifd + 2 + i * 12 + 2)
    obtain ⟨values,eqValues⟩ := u32_total isLittle tiff (ifd + 2 + i * 12 + 4)
    simp only [tagLoop,eqTag,eqType,eqValues,ok_bind]
    split
    · exact ih (i + 1)
    split
    · exact ⟨none,rfl⟩
    split
    · exact u16_total isLittle tiff _
    split
    · exact u32_total isLittle tiff _
    · exact ⟨none,rfl⟩

theorem tagValue_total (isLittle : Bool) (tiff : List UInt8) (ifd tag : Nat) :
    ∃ value, tagValue isLittle tiff ifd tag = .ok value := by
  obtain ⟨count,eqCount⟩ := u16_total isLittle tiff ifd
  simp only [tagValue,eqCount,ok_bind]
  cases count with
  | none => exact ⟨none,rfl⟩
  | some count =>
    dsimp only
    split
    · exact ⟨none,rfl⟩
    split
    · exact ⟨none,rfl⟩
    · exact tagLoop_total isLittle tiff ifd tag count 0

private theorem turned_inside (orientation : Nat) :
    1 ≤ (if 1 ≤ orientation ∧ orientation ≤ 8 then orientation else 1) ∧
      (if 1 ≤ orientation ∧ orientation ≤ 8 then orientation else 1) ≤ 8 := by
  split <;> omega

theorem take_two {bytes : List UInt8} (long : 2 ≤ bytes.length) : bytes.take 2 = [bytes[0],bytes[1]] := by
  match bytes,long with
  | _::_::_,_ => rfl

theorem thumbnailAt_sound (isLittle : Bool) (tiff : List UInt8) (orientation ifd1 : Nat) :
    Sound tiff (thumbnailAt isLittle tiff orientation ifd1) := by
  obtain ⟨offset,eqOffset⟩ := tagValue_total isLittle tiff ifd1 0x0201
  obtain ⟨length,eqLength⟩ := tagValue_total isLittle tiff ifd1 0x0202
  simp only [thumbnailAt,eqOffset,eqLength,ok_bind]
  cases offset with
  | none => exact sound_none tiff
  | some offset =>
    cases length with
    | none => exact sound_none tiff
    | some length =>
      dsimp only
      split
      · exact sound_none tiff
      next sized =>
      split
      · exact sound_none tiff
      next fits =>
      split
      · exact sound_none tiff
      next long =>
      have two : 2 ≤ (slice tiff offset (offset + length)).length := Nat.le_of_not_lt long
      rw [index_ok (by omega : 0 < (slice tiff offset (offset + length)).length),
        index_ok (by omega : 1 < (slice tiff offset (offset + length)).length),ok_bind,ok_bind]
      split
      · exact sound_none tiff
      next first =>
      split
      · exact sound_none tiff
      next second =>
      refine ⟨_,rfl,?_⟩
      rintro found ⟨⟩
      refine ⟨⟨offset,slice_lies tiff (Nat.le_add_right _ _) (Nat.le_of_not_lt fits)⟩,?_,?_,turned_inside orientation⟩
      · dsimp only
        rw [length_slice tiff (Nat.le_of_not_lt fits)]
        omega
      · dsimp only
        rw [take_two two,not_not.mp first,not_not.mp second]

theorem directories_sound (isLittle : Bool) (tiff : List UInt8) : Sound tiff (directories isLittle tiff) := by
  obtain ⟨magic,eqMagic⟩ := u16_total isLittle tiff 2
  obtain ⟨ifd0,eqIfd0⟩ := u32_total isLittle tiff 4
  simp only [directories,eqMagic,eqIfd0,ok_bind]
  split
  · exact sound_none tiff
  cases ifd0 with
  | none => exact sound_none tiff
  | some ifd0 =>
    obtain ⟨turned,eqTurned⟩ := tagValue_total isLittle tiff ifd0 0x0112
    obtain ⟨count,eqCount⟩ := u16_total isLittle tiff ifd0
    simp only [eqTurned,eqCount,ok_bind]
    split
    · exact sound_none tiff
    cases count with
    | none => exact sound_none tiff
    | some count =>
      obtain ⟨ifd1,eqIfd1⟩ := u32_total isLittle tiff (ifd0 + 2 + count * 12)
      simp only [eqIfd1,ok_bind]
      cases ifd1 with
      | none => exact sound_none tiff
      | some ifd1 =>
        dsimp only
        split
        · exact sound_none tiff
        · exact thumbnailAt_sound isLittle tiff _ ifd1

theorem fromExif_sound (tiff : List UInt8) : Sound tiff (fromExif tiff) := by
  rw [fromExif]
  split
  · exact sound_none tiff
  cases byteOrder tiff with
  | none => exact sound_none tiff
  | some isLittle => exact directories_sound isLittle tiff

theorem segments_sound (buffer : List UInt8) (fuel place : Nat) (lasts : buffer.length < place + fuel) :
    Sound buffer (segments buffer fuel place) := by
  induction fuel generalizing place with
  | zero =>
    rw [segments,if_neg (by omega)]
    exact sound_none buffer
  | succ fuel ih =>
    rw [segments]
    split
    case isFalse => exact sound_none buffer
    next room =>
    rw [index_ok (by omega),index_ok (by omega),readUInt_ok (by omega)]
    simp only [ok_bind]
    split
    · exact sound_none buffer
    split
    · exact ih (place + 1) (by omega)
    split
    · exact sound_none buffer
    split
    · exact sound_none buffer
    next counts =>
    split
    · exact sound_none buffer
    next fits =>
    split
    · rcases Nat.le_total (place + 4 + 6) (place + 2 + numberIn false (slice buffer (place + 2) (place + 2 + 2))) with order | short
      · exact (fromExif_sound _).lies (slice_lies buffer order (Nat.le_of_not_lt fits))
      · have empty : slice buffer (place + 4 + 6) (place + 2 + numberIn false (slice buffer (place + 2) (place + 2 + 2))) = [] := by
          apply drop_eq_nil_of_le
          rw [length_take]
          omega
        rw [empty]
        exact sound_none buffer
    · exact ih _ (by omega)

theorem embeddedThumbnail_sound (buffer : List UInt8) : Sound buffer (embeddedThumbnail buffer) := by
  rw [embeddedThumbnail]
  split
  · exact sound_none buffer
  next long =>
  rw [index_ok (by omega : 0 < buffer.length),index_ok (by omega : 1 < buffer.length)]
  simp only [ok_bind]
  split
  · exact sound_none buffer
  split
  · exact sound_none buffer
  · exact segments_sound buffer buffer.length 2 (by omega)

def written (isLittle : Bool) (width value : Nat) : List UInt8 :=
  if isLittle then little width value else (little width value).reverse

structure Entry where
  tag : Nat
  type : Nat
  count : Nat
  field : List UInt8
  small : tag < 256 ^ 2 ∧ type < 256 ^ 2 ∧ count < 256 ^ 4
  four : field.length = 4

def Entry.bytes (isLittle : Bool) (entry : Entry) : List UInt8 :=
  written isLittle 2 entry.tag ++ (written isLittle 2 entry.type ++ (written isLittle 4 entry.count ++ entry.field))

def directory (isLittle : Bool) (entries : List Entry) (next : Nat) : List UInt8 :=
  written isLittle 2 entries.length ++ (entries.flatMap (Entry.bytes isLittle) ++ written isLittle 4 next)

def Entry.Holds (isLittle : Bool) (entry : Entry) (value : Nat) : Prop :=
  entry.count = 1 ∧ ((entry.type = 3 ∧ value < 256 ^ 2 ∧ ∃ pad, entry.field = written isLittle 2 value ++ pad) ∨
    (entry.type = 4 ∧ value < 256 ^ 4 ∧ entry.field = written isLittle 4 value))

def Names (isLittle : Bool) (entries : List Entry) (tag value : Nat) : Prop :=
  ∃ entry, entries.find? (fun entry => entry.tag = tag) = some entry ∧ entry.Holds isLittle value

/-- A photograph's metadata: its two directories, wherever they lie, and the thumbnail the second names. -/
structure Photo where
  isLittle : Bool
  ifd0 : Nat
  ifd1 : Nat
  next : Nat
  offset : Nat
  entries0 : List Entry
  entries1 : List Entry
  thumbnail : List UInt8

structure Photo.In (photo : Photo) (tiff : List UInt8) : Prop where
  order : Lies tiff 0 (if photo.isLittle then [0x49,0x49] else [0x4d,0x4d])
  magic : Lies tiff 2 (written photo.isLittle 2 0x2a)
  first : Lies tiff 4 (written photo.isLittle 4 photo.ifd0)
  after : 8 ≤ photo.ifd0 ∧ 8 ≤ photo.ifd1
  small : photo.ifd0 < 256 ^ 4 ∧ photo.ifd1 < 256 ^ 4
  directory0 : Lies tiff photo.ifd0 (directory photo.isLittle photo.entries0 photo.ifd1)
  directory1 : Lies tiff photo.ifd1 (directory photo.isLittle photo.entries1 photo.next)
  counts : photo.entries0.length < 256 ^ 2 ∧ photo.entries1.length ≤ 4096
  place : Names photo.isLittle photo.entries1 0x0201 photo.offset
  size : Names photo.isLittle photo.entries1 0x0202 photo.thumbnail.length
  embedded : Lies tiff photo.offset photo.thumbnail
  image : photo.thumbnail.take 2 = [0xff,SOI]

structure Segment where
  fill : Nat
  marker : UInt8
  body : List UInt8

def Segment.head (segment : Segment) : List UInt8 :=
  0xff::segment.marker::(written false 2 (segment.body.length + 2) ++ segment.body)

def Segment.bytes (segment : Segment) : List UInt8 := List.replicate segment.fill 0xff ++ segment.head

structure Segment.Passed (segment : Segment) : Prop where
  marker : segment.marker ≠ 0xff ∧ segment.marker ≠ SOS
  short : segment.body.length + 2 < 256 ^ 2
  other : segment.marker = APP1 → ¬EXIF <+: segment.body

@[simp] theorem length_written (isLittle : Bool) (width value : Nat) : (written isLittle width value).length = width := by
  cases isLittle <;> simp [written]

theorem numberIn_written {width : Nat} (fits : value < 256 ^ width) :
    numberIn isLittle (written isLittle width value) = value := by
  cases isLittle
  · rw [numberIn,written,if_neg Bool.false_ne_true,if_neg Bool.false_ne_true,reverse_reverse,number_little fits]
  · rw [numberIn,written,if_pos rfl,if_pos rfl,number_little fits]

theorem readUInt_lies {width : Nat}
    (lies : Lies buffer place (written isLittle width value)) (fits : value < 256 ^ width) :
    readUInt isLittle width buffer place = .ok value := by
  have room := lies.fits
  have cut := lies.slice_eq
  rw [length_written] at room cut
  rw [readUInt_ok room,cut,numberIn_written fits]

theorem unsigned_lies {width : Nat}
    (lies : Lies tiff place (written isLittle width value)) (fits : value < 256 ^ width) :
    unsigned isLittle width tiff place = .ok (some value) := by
  have room := lies.fits
  rw [length_written] at room
  rw [unsigned,if_neg (Nat.not_lt.mpr room),readUInt_lies lies fits]
  rfl

theorem u16_lies
    (lies : Lies tiff place (written isLittle 2 value)) (fits : value < 256 ^ 2) : u16 isLittle tiff place = .ok (some value) :=
  unsigned_lies lies fits

theorem u32_lies
    (lies : Lies tiff place (written isLittle 4 value)) (fits : value < 256 ^ 4) : u32 isLittle tiff place = .ok (some value) :=
  unsigned_lies lies fits

@[simp] theorem Entry.length_bytes (isLittle : Bool) (entry : Entry) : (entry.bytes isLittle).length = 12 := by
  simp [Entry.bytes,entry.four]

theorem tagLoop_names {ifd tag i : Nat} {entries : List Entry}
    (lies : Lies tiff (ifd + 2 + i * 12) (entries.flatMap (Entry.bytes isLittle))) (names : Names isLittle entries tag value) :
    tagLoop isLittle tiff ifd tag entries.length i = .ok (some value) := by
  induction entries generalizing i with
  | nil =>
    obtain ⟨entry,found,-⟩ := names
    cases found
  | cons entry rest ih =>
    rw [flatMap_cons] at lies
    have here := lies.left
    have tagged := u16_lies here.left entry.small.1
    obtain ⟨named,found,holds⟩ := names
    simp only [length_cons,tagLoop,tagged,ok_bind]
    rw [find?_cons] at found
    by_cases same : entry.tag = tag
    · simp only [same,decide_true,Option.some.injEq] at found
      subst found
      rw [if_neg (by rw [same]; simp)]
      have typed := here.right.left
      have counted := here.right.right.left
      have valued := here.right.right.right
      rw [length_written] at typed counted valued
      rw [length_written] at counted valued
      rw [length_written] at valued
      rw [u16_lies typed entry.small.2.1,ok_bind,u32_lies counted entry.small.2.2,ok_bind,
        if_neg (by rw [holds.1]; simp)]
      rcases holds.2 with ⟨short,small,pad,field⟩ | ⟨long,small,field⟩
      · rw [if_pos (by rw [short])]
        rw [field] at valued
        exact u16_lies valued.left small
      · rw [if_neg (by rw [long]; simp),if_pos (by rw [long])]
        rw [field] at valued
        exact u32_lies valued small
    · simp only [same,decide_false] at found
      rw [if_pos (by simpa using same)]
      apply ih
      · have later := lies.right
        rw [Entry.length_bytes] at later
        rwa [Nat.add_mul,Nat.one_mul,← Nat.add_assoc]
      · exact ⟨named,found,holds⟩

theorem length_entries (isLittle : Bool) (entries : List Entry) :
    (entries.flatMap (Entry.bytes isLittle)).length = entries.length * 12 := by
  induction entries with
  | nil => rfl
  | cons entry rest ih =>
    rw [flatMap_cons,length_append,Entry.length_bytes,ih,length_cons]
    omega

theorem tagValue_names {ifd tag next : Nat} {entries : List Entry}
    (lies : Lies tiff ifd (directory isLittle entries next)) (few : entries.length ≤ 4096)
    (names : Names isLittle entries tag value) : tagValue isLittle tiff ifd tag = .ok (some value) := by
  have listed := lies.right.left
  have room := listed.fits
  rw [length_written] at listed room
  rw [length_entries] at room
  rw [tagValue,u16_lies lies.left (by omega),ok_bind]
  dsimp only
  rw [if_neg (Nat.not_lt.mpr few),if_neg (Nat.not_lt.mpr room)]
  apply tagLoop_names _ names
  rwa [Nat.zero_mul,Nat.add_zero]

theorem byteOrder_in {photo : Photo} (inside : photo.In tiff) : byteOrder tiff = some photo.isLittle := by
  have mark := inside.order.slice_eq
  cases small : photo.isLittle
  · rw [small,if_neg Bool.false_ne_true] at mark
    change slice tiff 0 2 = _ at mark
    rw [byteOrder,mark]
    decide
  · rw [small,if_pos rfl] at mark
    change slice tiff 0 2 = _ at mark
    rw [byteOrder,mark]
    decide

theorem thumbnailAt_in {photo : Photo} (inside : photo.In tiff) (short : tiff.length ≤ MAX_THUMBNAIL)
    (orientation : Nat) : ∃ turned, thumbnailAt photo.isLittle tiff orientation photo.ifd1 =
      .ok (some ⟨photo.thumbnail,turned⟩) := by
  have room := inside.embedded.fits
  have cut := inside.embedded.slice_eq
  have image := inside.image
  obtain ⟨rest,whole⟩ : ∃ rest, photo.thumbnail = 0xff::SOI::rest := by
    match thumb : photo.thumbnail,image with
    | [],image => cases image
    | [_],image => cases image
    | _::_::rest,image =>
      cases image
      exact ⟨rest,rfl⟩
  have size : photo.thumbnail.length = rest.length + 2 := by rw [whole]; rfl
  refine ⟨if 1 ≤ orientation ∧ orientation ≤ 8 then orientation else 1,?_⟩
  rw [thumbnailAt,tagValue_names inside.directory1 inside.counts.2 inside.place,ok_bind,
    tagValue_names inside.directory1 inside.counts.2 inside.size,ok_bind]
  dsimp only
  rw [if_neg (by omega),if_neg (Nat.not_lt.mpr room),cut,if_neg (by omega)]
  simp only [whole]
  rfl

theorem fromExif_in {photo : Photo} (inside : photo.In tiff) (short : tiff.length ≤ MAX_THUMBNAIL) :
    ∃ turned, fromExif tiff = .ok (some ⟨photo.thumbnail,turned⟩) := by
  have room := inside.first.fits
  have linked := inside.directory0.right.right
  rw [length_written,length_entries] at linked
  rw [length_written] at room
  obtain ⟨orientation,eqOrientation⟩ := tagValue_total photo.isLittle tiff photo.ifd0 0x0112
  obtain ⟨turned,found⟩ := thumbnailAt_in inside short (orientation.getD 1)
  refine ⟨turned,?_⟩
  rw [fromExif,if_neg (by omega),byteOrder_in inside]
  dsimp only
  rw [directories,u16_lies inside.magic (by decide),ok_bind,if_neg (by simp),u32_lies inside.first inside.small.1,ok_bind]
  dsimp only
  rw [if_neg (Nat.not_lt.mpr inside.after.1),eqOrientation,ok_bind,u16_lies inside.directory0.left inside.counts.1,ok_bind]
  dsimp only
  rw [u32_lies linked inside.small.2,ok_bind]
  dsimp only
  have later := inside.after.2
  rw [if_neg (by omega),found]

theorem segments_fill {rest : List UInt8} {marker : UInt8} (fill fuel place : Nat) (long : 2 ≤ rest.length)
    (lies : Lies buffer place (List.replicate fill 0xff ++ 0xff::marker::rest)) (lasts : buffer.length < place + fuel) :
    ∃ fuel', buffer.length < place + fill + fuel' ∧ segments buffer fuel place = segments buffer fuel' (place + fill) := by
  induction fill generalizing fuel place with
  | zero => exact ⟨fuel,lasts,rfl⟩
  | succ fill ih =>
    rw [replicate_succ,cons_append] at lies
    have room := lies.fits
    have later := lies.tail
    obtain ⟨more,filled⟩ : ∃ more, List.replicate fill 0xff ++ 0xff::marker::rest = 0xff::more := by
      cases fill with
      | zero => exact ⟨_,rfl⟩
      | succ fill => exact ⟨_,rfl⟩
    simp only [length_cons,length_append,length_replicate] at room
    cases fuel with
    | zero => omega
    | succ fuel =>
      have first := index_ok (by omega : place < buffer.length)
      have second := index_ok (by omega : place + 1 < buffer.length)
      have byte := lies.getElem?
      have next := later
      rw [filled] at next
      have next := next.getElem?
      rw [getElem?_eq_getElem (by omega),Option.some.injEq] at byte next
      rw [byte] at first
      rw [next] at second
      obtain ⟨fuel',lasts',same⟩ := ih fuel (place + 1) later (by omega)
      refine ⟨fuel',by omega,?_⟩
      rw [segments,if_pos (by omega),first,ok_bind,if_neg (by simp),second,ok_bind,if_pos rfl,same]
      congr 1
      omega

theorem segments_head {segment : Segment} (fuel : Nat) (lies : Lies buffer place segment.head)
    (marker : segment.marker ≠ 0xff ∧ segment.marker ≠ SOS) (short : segment.body.length + 2 < 256 ^ 2) :
    segments buffer (fuel + 1) place =
      if segment.marker = APP1 ∧ slice buffer (place + 4) (place + 4 + 6) = EXIF then
        fromExif (slice buffer (place + 4 + 6) (place + segment.head.length))
      else segments buffer fuel (place + segment.head.length) := by
  have size : segment.head.length = segment.body.length + 4 := by simp [Segment.head]; omega
  have room := lies.fits
  have first := index_ok (by omega : place < buffer.length)
  have second := index_ok (by omega : place + 1 < buffer.length)
  have byte := lies.getElem?
  have next := lies.tail.getElem?
  have counted : Lies buffer (place + 2) (written false 2 (segment.body.length + 2)) := lies.tail.tail.left
  rw [getElem?_eq_getElem (by omega),Option.some.injEq] at byte next
  rw [byte] at first
  rw [next] at second
  have ends : place + 2 + (segment.body.length + 2) = place + segment.head.length := by omega
  rw [segments,if_pos (by omega),first,ok_bind,if_neg (by simp),second,ok_bind,if_neg marker.1,if_neg marker.2]
  dsimp only
  rw [readUInt_lies counted short,ok_bind,if_neg (by omega),ends,if_neg (Nat.not_lt.mpr room)]

theorem lies_from {content : List UInt8} (lies : Lies buffer place content) :
    ∃ back, buffer.drop place = content ++ back := by
  obtain ⟨front,back,rfl,rfl⟩ := lies
  exact ⟨back,by rw [append_assoc,drop_left]⟩

theorem segment_other {more : List UInt8} {segment : Segment} (passed : segment.Passed)
    (lies : Lies buffer place (segment.body ++ 0xff::more)) :
    ¬(segment.marker = APP1 ∧ slice buffer place (place + 6) = EXIF) := by
  rintro ⟨app1,same⟩
  apply passed.other app1
  obtain ⟨back,from'⟩ := lies_from lies
  rw [slice,drop_take,Nat.add_sub_cancel_left,from',append_assoc] at same
  rcases Nat.lt_or_ge segment.body.length 6 with short | long
  · have strange : 0xff ∈ EXIF := by
      rw [← same,take_append,cons_append]
      apply mem_append_right
      obtain ⟨left,positive⟩ : ∃ left, 6 - segment.body.length = left + 1 := ⟨6 - segment.body.length - 1,by omega⟩
      rw [positive,take_succ_cons]
      exact mem_cons_self
    exact absurd strange (by decide)
  · rw [take_append_of_le_length long] at same
    rw [← same]
    exact List.take_prefix 6 segment.body

theorem segments_passed {more : List UInt8} {segment : Segment} {fuel : Nat} (passed : segment.Passed)
    (lies : Lies buffer place (segment.bytes ++ 0xff::more)) (lasts : buffer.length < place + fuel) :
    ∃ fuel', buffer.length < place + segment.bytes.length + fuel' ∧
      segments buffer fuel place = segments buffer fuel' (place + segment.bytes.length) := by
  obtain ⟨fuel',lasts',same⟩ := segments_fill segment.fill fuel place (by simp) lies.left lasts
  have head := lies.left.right
  rw [length_replicate] at head
  have size : segment.bytes.length = segment.fill + segment.head.length := by
    rw [Segment.bytes,length_append,length_replicate]
  have body : Lies buffer (place + segment.fill + 4) (segment.body ++ 0xff::more) := by
    rw [Segment.bytes,Segment.head,append_assoc] at lies
    have tail := lies.right
    rw [length_replicate] at tail
    have tail' := @Lies.right _ _ (0xff::segment.marker::written false 2 (segment.body.length + 2)) (segment.body ++ 0xff::more) _
      (by simpa using tail)
    simpa using tail'
  have room := head.fits
  cases fuel' with
  | zero =>
    rw [Segment.head,length_cons] at room
    omega
  | succ fuel' =>
    rw [segments_head fuel' head passed.marker passed.short,if_neg (segment_other passed body)] at same
    refine ⟨fuel',?_,?_⟩
    · rw [Segment.head,length_cons] at size
      omega
    · rw [same,size,Nat.add_assoc]

theorem bytes_begin (before : List Segment) (last : Segment) (rest : List UInt8) :
    ∃ more, before.flatMap Segment.bytes ++ (last.bytes ++ rest) = 0xff::more := by
  have each (segment : Segment) : ∃ more, segment.bytes = 0xff::more := by
    obtain ⟨fill,marker,body⟩ := segment
    cases fill <;> exact ⟨_,rfl⟩
  cases before with
  | nil =>
    obtain ⟨more,same⟩ := each last
    exact ⟨more ++ rest,by rw [flatMap_nil,nil_append,same]; rfl⟩
  | cons segment others =>
    obtain ⟨more,same⟩ := each segment
    exact ⟨more ++ others.flatMap Segment.bytes ++ (last.bytes ++ rest),by rw [flatMap_cons,same]; simp⟩

theorem segments_before {rest : List UInt8} {last : Segment} (before : List Segment) {fuel : Nat}
    (passed : ∀ segment ∈ before, segment.Passed)
    (lies : Lies buffer place (before.flatMap Segment.bytes ++ (last.bytes ++ rest))) (lasts : buffer.length < place + fuel) :
    ∃ fuel' place', buffer.length < place' + fuel' ∧ Lies buffer place' last.bytes ∧
      segments buffer fuel place = segments buffer fuel' place' := by
  induction before generalizing fuel place with
  | nil =>
    rw [flatMap_nil,nil_append] at lies
    exact ⟨fuel,place,lasts,lies.left,rfl⟩
  | cons segment others ih =>
    rw [flatMap_cons,append_assoc] at lies
    obtain ⟨more,begins⟩ := bytes_begin others last rest
    obtain ⟨fuel',lasts',same⟩ := segments_passed (passed segment mem_cons_self) (begins ▸ lies) lasts
    obtain ⟨fuel'',place',lasts'',lies',same'⟩ :=
      ih (fun segment member => passed segment (mem_cons_of_mem _ member)) lies.right lasts'
    exact ⟨fuel'',place',lasts'',lies',same.trans same'⟩

theorem segments_exif {photo : Photo} {fill fuel : Nat} (inside : photo.In tiff)
    (short : tiff.length + 8 < 256 ^ 2) (lies : Lies buffer place (Segment.bytes ⟨fill,APP1,EXIF ++ tiff⟩))
    (lasts : buffer.length < place + fuel) : ∃ turned, segments buffer fuel place = .ok (some ⟨photo.thumbnail,turned⟩) := by
  obtain ⟨fuel',lasts',same⟩ := segments_fill fill fuel place (by simp) lies lasts
  have head : Lies buffer (place + fill) (Segment.head ⟨fill,APP1,EXIF ++ tiff⟩) := by
    have after := lies.right
    rwa [length_replicate] at after
  have room := head.fits
  have body : Lies buffer (place + fill + 4) (EXIF ++ tiff) := by
    have after := head.tail.tail.right
    rwa [length_written] at after
  have size : (EXIF ++ tiff).length = tiff.length + 6 := by rw [length_append]; exact Nat.add_comm 6 _
  have name := body.left.slice_eq
  have kept := body.right.slice_eq
  have whole : place + fill + (Segment.head ⟨fill,APP1,EXIF ++ tiff⟩).length = place + fill + 4 + 6 + tiff.length := by
    simp only [Segment.head,length_cons,length_append,length_written,size]
    omega
  cases fuel' with
  | zero =>
    change buffer.length < place + fill + 0 at lasts'
    omega
  | succ fuel' =>
    have six : EXIF.length = 6 := rfl
    rw [six] at name kept
    obtain ⟨turned,found⟩ := fromExif_in inside (by rw [MAX_THUMBNAIL]; omega)
    refine ⟨turned,?_⟩
    rw [same,segments_head fuel' head (⟨by simp [APP1],by simp [APP1,SOS]⟩ : APP1 ≠ 0xff ∧ APP1 ≠ SOS) (by dsimp only; omega),if_pos ⟨rfl,name⟩,whole,kept,found]

/-- Every buffer is read to its end without leaving it, what comes out lies in it, and a photograph's own
thumbnail is what comes out. -/
structure Extracted (buffer : List UInt8) : Prop where
  sound : Sound buffer (embeddedThumbnail buffer)
  found : ∀ (before : List Segment) (fill : Nat) (tiff rest : List UInt8) (photo : Photo),
    buffer = 0xff::SOI::(before.flatMap Segment.bytes ++ (Segment.bytes ⟨fill,APP1,EXIF ++ tiff⟩ ++ rest)) →
    (∀ segment ∈ before, segment.Passed) → tiff.length + 8 < 256 ^ 2 → photo.In tiff →
      ∃ orientation, embeddedThumbnail buffer = .ok (some ⟨photo.thumbnail,orientation⟩)

theorem thumbnail_extracted (buffer : List UInt8) : Extracted buffer := by
  refine ⟨embeddedThumbnail_sound buffer,?_⟩
  intro before fill tiff rest photo whole passed short inside
  have start : Lies buffer 2 (before.flatMap Segment.bytes ++ (Segment.bytes ⟨fill,APP1,EXIF ++ tiff⟩ ++ rest)) := by
    have all := lies_whole buffer
    rw [whole] at all ⊢
    exact all.tail.tail
  obtain ⟨fuel,place,lasts,lies,same⟩ := segments_before before passed start (by omega : buffer.length < 2 + buffer.length)
  obtain ⟨turned,found⟩ := segments_exif inside short lies lasts
  refine ⟨turned,?_⟩
  rw [← found,← same]
  have long : ¬buffer.length < 4 := by
    rw [whole]
    simp only [Segment.bytes,Segment.head,length_cons,length_append]
    omega
  rw [embeddedThumbnail,if_neg long]
  subst whole
  rfl

example : embeddedThumbnail [0xff,0xd8,0xff,0xe1,0,54,0x45,0x78,0x69,0x66,0,0,0x49,0x49,0x2a,0,8,0,0,0,0,0,14,0,0,0,
    2,0,1,2,4,0,1,0,0,0,44,0,0,0,2,2,4,0,1,0,0,0,2,0,0,0,0,0,0,0,0xff,0xd8] = .ok (some ⟨[0xff,0xd8],1⟩) := by
  decide +kernel

end Depsis.Files.ExifThumbnail

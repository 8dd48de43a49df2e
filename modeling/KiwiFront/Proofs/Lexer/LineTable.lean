import KiwiFront.LineTable
import KiwiFront.Proofs.Lexer.Positions
import KiwiFront.Proofs.Steps
import Mathlib

/-!
# Byte offsets and positions

A line table starts with zero and lists the offsets behind all line feeds in ascending order, so
whatever way an offset is looked up, the line is the last one that starts at or before it. An
offset between two characters has the position behind the text in front of it, if rows and
columns are counted that far. One that lies within a character has none. A look-up fails in no
other way.
-/

namespace KiwiFront

namespace Counting

variable {counting : Counting} {above left : Nat}

/-- A 32-bit number that is not the greatest has a next one. -/
theorem int32_next?_of_le {number : Int} (small : number + 1 ≤ Int32.maxValue.toInt) :
    int32.next? number = .ok (number + 1) := by
  rw [next?, if_neg (by omega)]

/-- The number that comes next to a column is found if it is reached. -/
theorem next?_of_reaches {row column : Int} (reaches : counting.Reaches ⟨row, column + 1⟩) :
    counting.next? column = .ok (column + 1) := by
  cases counting with
  | endless => rfl
  | int32 => exact int32_next?_of_le reaches.2

/-- A position that is reached is the one that is counted. -/
theorem position?_of_reaches (reaches : counting.Reaches ⟨above + 1, left + 1⟩) :
    counting.position? above left = .ok ⟨above + 1, left + 1⟩ := by
  cases counting with
  | endless => rfl
  | int32 =>
      have next (count : Nat) (small : (count + 1 : Int) ≤ Int32.maxValue.toInt) :
          int32.next? (int32.number count) = .ok (count + 1) := by
        have greatest : Int32.maxValue.toInt = 2147483647 := rfl
        have uncut : (Int32.ofNat count).toInt = count := Int32.toInt_ofNat_of_lt (by omega)
        rw [number, uncut, int32_next?_of_le small]
      unfold position?
      rw [next above reaches.1, next left reaches.2]
      rfl

/-- Where a position is reached, so is the start of its line and of each one above it. -/
theorem Reaches.lineStart {position : Position} (reaches : counting.Reaches position) {row : Int}
    (upTo : row ≤ position.row) : counting.Reaches ⟨row, 1⟩ := by
  cases counting with
  | endless => exact trivial
  | int32 =>
      have one : (1 : Int) ≤ Int32.maxValue.toInt := by decide
      exact ⟨Int.le_trans upTo reaches.1, one⟩

/-- In 32 bits, exactly the numbers behind the greatest one are missing. -/
theorem position?_eq_error_iff {cause : OffsetError} :
    int32.position? above left = .error cause ↔ cause = .overflow ∧
      (Int32.ofNat above = Int32.maxValue ∨ Int32.ofNat left = Int32.maxValue) := by
  have next (count : Nat) : int32.next? (int32.number count) =
      if Int32.ofNat count = Int32.maxValue then .error .overflow
      else .ok ((Int32.ofNat count).toInt + 1) := by
    simp only [number, next?, Int32.toInt_inj]
  unfold position?
  rw [next, next]
  by_cases noRow : Int32.ofNat above = Int32.maxValue
  · simp [noRow, Except.bind, bind, eq_comm]
  · by_cases noColumn : Int32.ofNat left = Int32.maxValue
    · simp [noRow, noColumn, Except.bind, bind, eq_comm]
    · simp [noRow, noColumn, Except.bind, bind, pure, Except.pure]

/-- Where a column is reached, so is the one in front of it. -/
theorem Reaches.of_next {row column : Int} (reaches : counting.Reaches ⟨row, column + 1⟩) :
    counting.Reaches ⟨row, column⟩ := by
  cases counting with
  | endless => exact trivial
  | int32 =>
      have next : column + 1 ≤ Int32.maxValue.toInt := reaches.2
      have before : column ≤ Int32.maxValue.toInt := by omega
      exact ⟨reaches.1, before⟩

/-- Numbers of 32 bits reach the column next to the place behind a text with two characters less
than the greatest of them. -/
theorem int32_reaches_next {text : List Char} (short : text.length + 2 ≤ Int32.maxValue.toInt) :
    int32.Reaches ⟨(Position.behind text).row, (Position.behind text).column + 1⟩ := by
  have rows : text.count '\n' ≤ text.length := List.count_le_length
  have columns : (text.reverse.takeWhile (· ≠ '\n')).length ≤ text.length := by
    have inRow := (text.reverse.takeWhile_sublist (· ≠ '\n')).length_le
    rwa [List.length_reverse] at inRow
  refine ⟨?_, ?_⟩ <;>
    · simp only [Position.behind]
      omega

/-- So they reach all of a text that is so short. -/
theorem int32_reachesAll {source : String} (short : source.length + 2 ≤ Int32.maxValue.toInt) :
    int32.ReachesAll source := by
  intro front back split
  have length : front.length ≤ source.length := by
    rw [← String.length_toList, split, List.length_append]
    exact Nat.le_add_right _ _
  exact (int32_reaches_next (by omega)).of_next

end Counting

namespace LineTable

open String (utf8Len utf8Len_cons utf8Len_append utf8Len_nil)

/-- An offset is looked up within the text, or at its end. -/
theorem clamped_le (source : String) (offset : Nat) :
    min offset source.utf8ByteSize ≤ utf8Len source.toList := by
  rw [String.utf8Len_toList]
  exact Nat.min_le_right offset source.utf8ByteSize

/-- What stands in front of an offset is not longer than the text. -/
theorem utf8Len_front {source : String} {front back : List Char}
    (split : source.toList = front ++ back) :
    utf8Len front = min (utf8Len front) source.utf8ByteSize := by
  rw [← String.utf8Len_toList, split, utf8Len_append]
  omega

section Starts

variable {offset start : Nat} {text : List Char}

/-- The line starts of a text are those of its front and, further on, those of its back. -/
theorem startsAfter_append (offset : Nat) (front back : List Char) :
    startsAfter offset (front ++ back) =
      startsAfter offset front ++ startsAfter (offset + utf8Len front) back := by
  induction front generalizing offset with
  | nil => rfl
  | cons character rest inductionHypothesis =>
      have next : offset + character.utf8Size + utf8Len rest =
          offset + utf8Len (character :: rest) := by
        rw [utf8Len_cons]
        omega
      simp only [List.cons_append, startsAfter, inductionHypothesis, next]
      split <;> rfl

/-- A line starts behind a character of the text at the earliest. -/
theorem le_of_mem_startsAfter {character : Char} {rest : List Char}
    (member : start ∈ startsAfter offset (character :: rest)) :
    offset + character.utf8Size ≤ start := by
  induction rest generalizing offset character with
  | nil =>
      unfold startsAfter at member
      split at member
      · exact (List.mem_singleton.1 member).ge
      · cases member
  | cons next rest inductionHypothesis =>
      unfold startsAfter at member
      split at member
      · rcases List.mem_cons.1 member with rfl | later
        · exact Nat.le_refl _
        · have := inductionHypothesis later
          omega
      · have := inductionHypothesis member
        omega

/-- Line starts lie behind the place where the search begins. -/
theorem lt_of_mem_startsAfter (member : start ∈ startsAfter offset text) : offset < start := by
  cases text with
  | nil => cases member
  | cons character rest =>
      have := le_of_mem_startsAfter member
      have := character.utf8Size_pos
      omega

/-- There is one line start for every line feed. -/
theorem length_startsAfter (offset : Nat) (text : List Char) :
    (startsAfter offset text).length = text.count '\n' := by
  induction text generalizing offset with
  | nil => rfl
  | cons character rest inductionHypothesis =>
      unfold startsAfter
      by_cases isFeed : character = '\n'
      · simp [isFeed, inductionHypothesis]
      · simp [isFeed, inductionHypothesis]

/-- Line starts come in ascending order. -/
theorem startsAfter_ascending (offset : Nat) (text : List Char) :
    (startsAfter offset text).Pairwise (· < ·) := by
  induction text generalizing offset with
  | nil => exact .nil
  | cons character rest inductionHypothesis =>
      unfold startsAfter
      split
      · exact List.pairwise_cons.2 ⟨fun _ => lt_of_mem_startsAfter, inductionHypothesis _⟩
      · exact inductionHypothesis _

end Starts

/-- The starts of a line table ascend, from zero. -/
theorem starts_ascending (source : String) : (ofSource source).starts.Pairwise (· < ·) :=
  List.pairwise_cons.2 ⟨fun _ => lt_of_mem_startsAfter, startsAfter_ascending 0 source.toList⟩

section Search

variable {table : LineTable} {offset : Nat} {search : Search}

/-- Among ascending starts, there is a right answer for each offset. -/
theorem exists_isRight {starts : List Nat} (ascending : starts.Pairwise (· < ·)) (offset : Nat) :
    ∃ search : Search, search.IsRight starts offset := by
  induction starts with
  | nil => exact ⟨.miss 0, by simp [Search.IsRight]⟩
  | cons start rest inductionHypothesis =>
      obtain ⟨before, ascending⟩ := List.pairwise_cons.1 ascending
      rcases Nat.lt_trichotomy offset start with earlier | rfl | later
      · refine ⟨.miss 0, Nat.zero_le _, by simp, List.forall_mem_cons.2 ⟨earlier, ?_⟩⟩
        exact fun next member => Nat.lt_trans earlier (before next member)
      · exact ⟨.hit 0, rfl⟩
      · obtain ⟨search, isRight⟩ := inductionHypothesis ascending
        cases search with
        | hit index => exact ⟨.hit (index + 1), isRight⟩
        | miss index =>
            obtain ⟨within, below, above⟩ := isRight
            exact ⟨.miss (index + 1), Nat.succ_le_succ within,
              List.forall_mem_cons.2 ⟨later, below⟩, above⟩

/-- The starts up to an offset are those in front of the first one behind it. -/
theorem takeWhile_starts {front back : List Nat} (upTo : ∀ start ∈ front, start ≤ offset)
    (behind : ∀ start ∈ back, offset < start) :
    (front ++ back).takeWhile (fun start => decide (start ≤ offset)) = front := by
  rw [List.takeWhile_append_of_pos (by simpa using upTo)]
  cases back with
  | nil => simp
  | cons start rest =>
      have isBehind := behind start List.mem_cons_self
      rw [List.takeWhile_cons_of_neg (by simpa using isBehind), List.append_nil]

/-- The line of an offset is the last of those that start up to it. -/
theorem enclosing?_of_start {line start : Nat} (ascending : table.starts.Pairwise (· < ·))
    (found : table.starts[line]? = some start) (upTo : start ≤ offset)
    (behind : ∀ other ∈ table.starts.drop (line + 1), offset < other) :
    table.enclosing? offset = some (line, start) := by
  obtain ⟨within, here⟩ := List.getElem?_eq_some_iff.1 found
  have split : table.starts =
      table.starts.take line ++ [start] ++ table.starts.drop (line + 1) := by
    rw [List.append_assoc, List.singleton_append, ← here, ← List.drop_eq_getElem_cons within,
      List.take_append_drop]
  have count : (table.starts.take line).length = line :=
    List.length_take_of_le (Nat.le_of_lt within)
  rw [split, List.append_assoc] at ascending
  have before := (List.pairwise_append.1 ascending).2.2
  have reached : ∀ other ∈ table.starts.take line ++ [start], other ≤ offset := by
    refine List.forall_mem_append.2 ⟨fun other member => ?_, List.forall_mem_singleton.2 upTo⟩
    exact Nat.le_of_lt (Nat.lt_of_lt_of_le (before other member start (by simp)) upTo)
  have taken := takeWhile_starts reached behind
  rw [← split] at taken
  simp only [enclosing?, taken, List.getLast?_concat, List.length_append, List.length_singleton,
    Option.map_some, Nat.add_sub_cancel, count]

/-- Whatever the right answer is, it gives the line of the offset. There is one, since no offset
is in front of the first start, and its index is that of a start. -/
theorem Search.IsRight.line (isRight : search.IsRight table.starts offset)
    (ascending : table.starts.Pairwise (· < ·)) (first : table.starts.head? = some 0) :
    ∃ line start, search.line? = some line ∧ table.starts[line]? = some start ∧
      start ≤ offset ∧ table.enclosing? offset = some (line, start) := by
  cases search with
  | hit index =>
      have found : table.starts[index]? = some offset := isRight
      obtain ⟨within, here⟩ := List.getElem?_eq_some_iff.1 found
      have behind : ∀ other ∈ table.starts.drop (index + 1), offset < other := by
        have rest := ascending.sublist (List.drop_sublist index table.starts)
        rw [List.drop_eq_getElem_cons within, here] at rest
        exact (List.pairwise_cons.1 rest).1
      exact ⟨index, offset, rfl, found, Nat.le_refl _,
        enclosing?_of_start ascending found (Nat.le_refl _) behind⟩
  | miss index =>
      obtain ⟨within, below, above⟩ := isRight
      cases index with
      | zero => exact absurd (above 0 (List.mem_of_head? first)) (Nat.not_lt_zero _)
      | succ line =>
          have found : table.starts[line]? = some table.starts[line] :=
            List.getElem?_eq_getElem within
          have taken : table.starts[line] ∈ table.starts.take (line + 1) :=
            List.mem_take_iff_getElem.2 ⟨line, by omega, rfl⟩
          have upTo := Nat.le_of_lt (below _ taken)
          exact ⟨line, _, rfl, found, upTo, enclosing?_of_start ascending found upTo above⟩

end Search

section Bytes

variable {front back : List Char}

/-- Dropping the bytes of a front leaves the back. -/
theorem dropBytes?_append (front back : List Char) :
    dropBytes? (utf8Len front) (front ++ back) = some back := by
  induction front with
  | nil => cases back <;> rfl
  | cons character rest inductionHypothesis =>
      have positive := character.utf8Size_pos
      rw [utf8Len_cons, List.cons_append, dropBytes?, if_neg (by omega), if_neg (by omega),
        Nat.add_sub_cancel, inductionHypothesis]

/-- The characters in the bytes of a front are the characters of the front. -/
theorem countInBytes?_append (front back : List Char) :
    countInBytes? (utf8Len front) (front ++ back) = some front.length := by
  induction front with
  | nil => cases back <;> rfl
  | cons character rest inductionHypothesis =>
      have positive := character.utf8Size_pos
      rw [utf8Len_cons, List.cons_append, countInBytes?, if_neg (by omega), if_neg (by omega),
        Nat.add_sub_cancel, inductionHypothesis]
      rfl

/-- Characters are not counted up to the inside of one of them. -/
theorem countInBytes?_inside {count : Nat} {character : Char} (behind : utf8Len front < count)
    (before : count < utf8Len front + character.utf8Size) :
    countInBytes? count (front ++ character :: back) = none := by
  induction front generalizing count with
  | nil =>
      rw [utf8Len_nil] at behind before
      rw [List.nil_append, countInBytes?, if_neg (by omega), if_pos (by omega)]
  | cons first rest inductionHypothesis =>
      rw [utf8Len_cons] at behind before
      rw [List.cons_append, countInBytes?, if_neg (by omega), if_neg (by omega),
        inductionHypothesis (by omega) (by omega)]
      rfl

/-- An offset within a text stands between two characters or within one. -/
theorem offset_cases {offset : Nat} {text : List Char} (within : offset ≤ utf8Len text) :
    (∃ front back, text = front ++ back ∧ utf8Len front = offset) ∨
      ∃ front character back, text = front ++ character :: back ∧ utf8Len front < offset ∧
        offset < utf8Len front + character.utf8Size := by
  induction text generalizing offset with
  | nil => exact .inl ⟨[], [], rfl, (Nat.le_zero.1 within).symm⟩
  | cons first rest inductionHypothesis =>
      rw [utf8Len_cons] at within
      by_cases isStart : offset = 0
      · exact .inl ⟨[], first :: rest, rfl, isStart.symm⟩
      · by_cases isInside : offset < first.utf8Size
        · refine .inr ⟨[], first, rest, rfl, ?_, ?_⟩
          · rw [utf8Len_nil]
            omega
          · rwa [utf8Len_nil, Nat.zero_add]
        · have behind : offset - first.utf8Size ≤ utf8Len rest := by omega
          rcases inductionHypothesis behind with ⟨front, back, rfl, atEnd⟩ |
            ⟨front, character, back, rfl, after, before⟩
          · refine .inl ⟨first :: front, back, rfl, ?_⟩
            rw [utf8Len_cons]
            omega
          · refine .inr ⟨first :: front, character, back, rfl, ?_, ?_⟩
            · rw [utf8Len_cons]
              omega
            · rw [utf8Len_cons]
              omega

end Bytes

/-- A text falls into whole lines and the beginning of one more. -/
theorem exists_lines (text : List Char) :
    ∃ lines line, text = lines ++ line ∧ '\n' ∉ line ∧
      (lines = [] ∨ ∃ earlier, lines = earlier ++ ['\n']) := by
  induction text using List.reverseRecOn with
  | nil => exact ⟨[], [], rfl, List.not_mem_nil, .inl rfl⟩
  | append_singleton front character inductionHypothesis =>
      by_cases isFeed : character = '\n'
      · exact ⟨front ++ [character], [], (List.append_nil _).symm, List.not_mem_nil,
          .inr ⟨front, by rw [isFeed]⟩⟩
      · obtain ⟨lines, line, rfl, noFeed, whole⟩ := inductionHypothesis
        refine ⟨lines, line ++ [character], List.append_assoc _ _ _, ?_, whole⟩
        simp [noFeed, Ne.symm isFeed]

section Lines

variable {source : String} {offset : Nat} {lines line back : List Char} (noFeed : '\n' ∉ line)
  (whole : lines = [] ∨ ∃ earlier, lines = earlier ++ ['\n'])

include whole in
/-- Behind whole lines the next line starts. -/
theorem getElem?_starts (rest : List Nat) :
    (0 :: startsAfter 0 lines ++ rest)[lines.count '\n']? = some (utf8Len lines) := by
  rcases whole with rfl | ⟨earlier, rfl⟩
  · rfl
  · have last : startsAfter (0 + utf8Len earlier) ['\n'] = [utf8Len (earlier ++ ['\n'])] := by
      simp only [startsAfter, if_true, Nat.zero_add, utf8Len_append, utf8Len_cons, utf8Len_nil]
    have count : (earlier ++ ['\n']).count '\n' = (startsAfter 0 earlier).length + 1 := by
      rw [length_startsAfter, List.count_append, List.count_singleton_self]
    rw [startsAfter_append, last, count, List.cons_append, List.getElem?_cons_succ,
      List.append_assoc, List.getElem?_append_right (Nat.le_refl _), Nat.sub_self]
    rfl

include noFeed whole in
/-- The place behind some whole lines and the beginning of one more. -/
theorem behind_lines :
    Position.behind (lines ++ line) = ⟨lines.count '\n' + 1, line.length + 1⟩ := by
  have column : (Position.behind lines).column = 1 := by
    rcases whole with rfl | ⟨earlier, rfl⟩ <;> simp [Position.behind]
  rw [← Position.advanceBy_behind, Position.advanceBy_of_not_mem _ noFeed, column,
    Int.add_comm 1 (line.length : Int), Int.add_comm (lines.count '\n' : Int) 1]
  rfl

include noFeed whole in
/-- The line that an offset stands in, if no further one starts up to it. -/
theorem enclosing?_ofSource (split : source.toList = lines ++ line ++ back)
    (upTo : utf8Len lines ≤ offset)
    (behind : ∀ start ∈ startsAfter (utf8Len (lines ++ line)) back, offset < start) :
    (ofSource source).enclosing? offset = some (lines.count '\n', utf8Len lines) := by
  have none : startsAfter (0 + utf8Len lines) line = [] := by
    rw [← List.length_eq_zero_iff, length_startsAfter, List.count_eq_zero_of_not_mem noFeed]
  have starts : (ofSource source).starts = 0 :: startsAfter 0 lines ++
      startsAfter (utf8Len (lines ++ line)) back := by
    rw [ofSource, split, startsAfter_append, startsAfter_append, none, List.append_nil,
      Nat.zero_add]
    rfl
  have count : (0 :: startsAfter 0 lines).length = lines.count '\n' + 1 := by
    rw [List.length_cons, length_startsAfter]
  apply enclosing?_of_start (starts_ascending source) _ upTo
  · rw [starts, ← count, List.drop_left]
    exact behind
  · rw [starts]
    exact getElem?_starts whole _

include noFeed whole in
/-- The position of an offset that stands in a line, counted from there. -/
theorem positionIn?_ofSource (counting : Counting) (split : source.toList = lines ++ line ++ back)
    (upTo : utf8Len lines ≤ min offset source.utf8ByteSize)
    (behind : ∀ start ∈ startsAfter (utf8Len (lines ++ line)) back,
      min offset source.utf8ByteSize < start) :
    (ofSource source).positionIn? counting offset =
      (countInBytes? (min offset source.utf8ByteSize - utf8Len lines) (line ++ back)).elim
        (.error .insideCharacter) (counting.position? (lines.count '\n')) := by
  have enclosing := enclosing?_ofSource noFeed whole split upTo behind
  have dropped : dropBytes? (utf8Len lines) (ofSource source).source.toList =
      some (line ++ back) := by
    rw [ofSource, split, List.append_assoc, dropBytes?_append]
  have same : (ofSource source).source.utf8ByteSize = source.utf8ByteSize := rfl
  simp only [positionIn?, same, enclosing, dropped, Option.bind_some]
  cases countInBytes? (min offset source.utf8ByteSize - utf8Len lines) (line ++ back) <;> rfl

end Lines

section Positions

variable {counting : Counting} {source : String} {offset : Nat} {front back : List Char}

/-- The line of an offset between two characters is counted by the line feeds in front of it,
and its column by the characters behind the last of them. -/
theorem positionIn?_between (split : source.toList = front ++ back)
    (isEnd : utf8Len front = min offset source.utf8ByteSize) :
    (ofSource source).positionIn? counting offset =
      counting.position? (front.count '\n') (front.reverse.takeWhile (· ≠ '\n')).length := by
  obtain ⟨lines, line, rfl, noFeed, whole⟩ := exists_lines front
  have inLine : min offset source.utf8ByteSize - utf8Len lines = utf8Len line := by
    rw [← isEnd, utf8Len_append, Nat.add_sub_cancel_left]
  have upTo : utf8Len lines ≤ min offset source.utf8ByteSize := by
    rw [← isEnd, utf8Len_append]
    exact Nat.le_add_right _ _
  have behind : ∀ start ∈ startsAfter (utf8Len (lines ++ line)) back,
      min offset source.utf8ByteSize < start := by
    intro start member
    rw [← isEnd]
    exact lt_of_mem_startsAfter member
  obtain ⟨rows, columns⟩ := Position.mk.inj (behind_lines noFeed whole)
  have above : (lines ++ line).count '\n' = lines.count '\n' := by omega
  have left : ((lines ++ line).reverse.takeWhile (· ≠ '\n')).length = line.length := by omega
  rw [positionIn?_ofSource noFeed whole counting split upTo behind, inLine, countInBytes?_append,
    above, left, Option.elim_some]

/-- As far as rows and columns are counted, this is the position behind the text in front. -/
theorem positionIn?_of_reaches (split : source.toList = front ++ back)
    (isEnd : utf8Len front = min offset source.utf8ByteSize)
    (reaches : counting.Reaches (.behind front)) :
    (ofSource source).positionIn? counting offset = .ok (.behind front) := by
  have same : Position.behind front = ⟨(front.count '\n' : Int) + 1,
      ((front.reverse.takeWhile (· ≠ '\n')).length : Int) + 1⟩ := by
    rw [Position.behind, Int.add_comm, Int.add_comm 1]
  rw [same] at reaches ⊢
  rw [positionIn?_between split isEnd, Counting.position?_of_reaches reaches]

/-- A span is found exactly where both of its ends are. -/
theorem spanIn?_eq_ok_iff {table : LineTable} {start stop : Nat} {span : Span} :
    table.spanIn? counting start stop = .ok span ↔
      table.positionIn? counting start = .ok span.start ∧
        table.positionIn? counting stop = .ok span.stop := by
  obtain ⟨first, last⟩ := span
  unfold spanIn?
  constructor
  · intro found
    obtain ⟨_, foundFirst, found⟩ := steps_of_bind_ok found
    obtain ⟨_, foundLast, ⟨⟩⟩ := steps_of_bind_ok found
    exact ⟨foundFirst, foundLast⟩
  · rintro ⟨foundFirst, foundLast⟩
    rw [foundFirst, foundLast]
    rfl

/-- In numbers of 32 bits, each end of a span is the position of its own offset. -/
theorem span?_eq_ok_iff {table : LineTable} {start stop : Nat} {span : Span} :
    table.span? start stop = .ok span ↔
      table.position? start = .ok span.start ∧ table.position? stop = .ok span.stop :=
  spanIn?_eq_ok_iff

/-- A text within another one has the span from the place behind what is in front of it to the
place behind itself. -/
theorem spanIn?_of_reaches {text : List Char} (split : source.toList = front ++ text ++ back)
    (reachesStart : counting.Reaches (.behind front))
    (reachesStop : counting.Reaches (.behind (front ++ text))) :
    (ofSource source).spanIn? counting (utf8Len front) (utf8Len front + utf8Len text) =
      .ok ⟨.behind front, .behind (front ++ text)⟩ := by
  have splitStart : source.toList = front ++ (text ++ back) := by
    rw [split, List.append_assoc]
  rw [spanIn?_eq_ok_iff, ← utf8Len_append]
  exact ⟨positionIn?_of_reaches splitStart (utf8Len_front splitStart) reachesStart,
    positionIn?_of_reaches split (utf8Len_front split) reachesStop⟩

/-- An offset within a character has no position. -/
theorem positionIn?_inside {character : Char} (split : source.toList = front ++ character :: back)
    (after : utf8Len front < min offset source.utf8ByteSize)
    (before : min offset source.utf8ByteSize < utf8Len front + character.utf8Size) :
    (ofSource source).positionIn? counting offset = .error .insideCharacter := by
  obtain ⟨lines, line, rfl, noFeed, whole⟩ := exists_lines front
  have behind : ∀ start ∈ startsAfter (utf8Len (lines ++ line)) (character :: back),
      min offset source.utf8ByteSize < start :=
    fun start member => Nat.lt_of_lt_of_le before (le_of_mem_startsAfter member)
  rw [utf8Len_append] at after before
  rw [positionIn?_ofSource noFeed whole counting split (by omega) behind,
    countInBytes?_inside (by omega) (by omega), Option.elim_none]

/-- Where all of a text is reached, a position is found between two characters only. -/
theorem positionIn?_eq_ok_iff (reaches : counting.ReachesAll source) {position : Position} :
    (ofSource source).positionIn? counting offset = .ok position ↔
      ∃ front back, source.toList = front ++ back ∧
        utf8Len front = min offset source.utf8ByteSize ∧ position = .behind front := by
  constructor
  · intro found
    rcases offset_cases (clamped_le source offset) with ⟨front, back, split, isEnd⟩ |
      ⟨front, character, back, split, after, before⟩
    · rw [positionIn?_of_reaches split isEnd (reaches front back split)] at found
      exact ⟨front, back, split, isEnd, (Except.ok.inj found).symm⟩
    · rw [positionIn?_inside split after before] at found
      cases found
  · rintro ⟨front, back, split, isEnd, rfl⟩
    exact positionIn?_of_reaches split isEnd (reaches front back split)

/-- None is found within a character only. -/
theorem positionIn?_eq_error_iff (reaches : counting.ReachesAll source) {cause : OffsetError} :
    (ofSource source).positionIn? counting offset = .error cause ↔
      cause = .insideCharacter ∧ ∃ front character back,
        source.toList = front ++ character :: back ∧
          utf8Len front < min offset source.utf8ByteSize ∧
          min offset source.utf8ByteSize < utf8Len front + character.utf8Size := by
  constructor
  · intro failed
    rcases offset_cases (clamped_le source offset) with ⟨front, back, split, isEnd⟩ |
      ⟨front, character, back, split, after, before⟩
    · rw [positionIn?_of_reaches split isEnd (reaches front back split)] at failed
      cases failed
    · rw [positionIn?_inside split after before] at failed
      exact ⟨(Except.error.inj failed).symm, front, character, back, split, after, before⟩
  · rintro ⟨rfl, front, character, back, split, after, before⟩
    exact positionIn?_inside split after before

/-- Whatever a text is, no position of 32 bits is found within a character, nor where there is
no number for its row or its column. -/
theorem position?_eq_error_iff {cause : OffsetError} :
    (ofSource source).position? offset = .error cause ↔
      (cause = .insideCharacter ∧ ∃ front character back,
        source.toList = front ++ character :: back ∧
          utf8Len front < min offset source.utf8ByteSize ∧
          min offset source.utf8ByteSize < utf8Len front + character.utf8Size) ∨
      cause = .overflow ∧ ∃ front back, source.toList = front ++ back ∧
        utf8Len front = min offset source.utf8ByteSize ∧
        (Int32.ofNat (front.count '\n') = Int32.maxValue ∨
          Int32.ofNat (front.reverse.takeWhile (· ≠ '\n')).length = Int32.maxValue) := by
  constructor
  · intro failed
    rcases offset_cases (clamped_le source offset) with ⟨front, back, split, isEnd⟩ |
      ⟨front, character, back, split, after, before⟩
    · rw [position?, positionIn?_between split isEnd, Counting.position?_eq_error_iff] at failed
      exact .inr ⟨failed.1, front, back, split, isEnd, failed.2⟩
    · rw [position?, positionIn?_inside split after before] at failed
      exact .inl ⟨(Except.error.inj failed).symm, front, character, back, split, after, before⟩
  · rintro (⟨rfl, front, character, back, split, after, before⟩ |
      ⟨rfl, front, back, split, isEnd, overflows⟩)
    · exact positionIn?_inside split after before
    · rw [position?, positionIn?_between split isEnd]
      exact Counting.position?_eq_error_iff.2 ⟨rfl, overflows⟩

end Positions

section Order

variable {front other back rest : List Char}

/-- Every character leads to a later position. -/
theorem behind_lt (front : List Char) {text : List Char} (nonempty : text ≠ []) :
    Position.behind front < Position.behind (front ++ text) := by
  obtain ⟨character, rest, rfl⟩ := List.exists_cons_of_ne_nil nonempty
  rw [← Position.advanceBy_behind, Position.advanceBy_cons]
  exact Position.lt_of_lt_of_le (Position.lt_advance _ character) (Position.le_advanceBy _ rest)

/-- The longer one of two beginnings of a text continues the other one. -/
theorem exists_between (same : front ++ back = other ++ rest)
    (upTo : utf8Len front ≤ utf8Len other) : ∃ text, other = front ++ text := by
  rcases List.append_eq_append_iff.1 same with ⟨text, longer, _⟩ | ⟨text, longer, _⟩
  · exact ⟨text, longer⟩
  · cases text with
    | nil => exact ⟨[], by rw [longer, List.append_nil, List.append_nil]⟩
    | cons character text =>
        have positive := character.utf8Size_pos
        rw [longer, utf8Len_append, utf8Len_cons] at upTo
        omega

/-- Of two byte offsets in one text, the earlier one has the earlier position. -/
theorem behind_lt_of_lt (same : front ++ back = other ++ rest)
    (earlier : utf8Len front < utf8Len other) : Position.behind front < Position.behind other := by
  obtain ⟨text, rfl⟩ := exists_between same (Nat.le_of_lt earlier)
  refine behind_lt front ?_
  rintro rfl
  rw [List.append_nil] at earlier
  exact Nat.lt_irrefl _ earlier

/-- Beginnings of a text have the order of the places behind them. -/
theorem behind_lt_iff (same : front ++ back = other ++ rest) :
    Position.behind front < Position.behind other ↔ utf8Len front < utf8Len other := by
  refine ⟨fun before => ?_, behind_lt_of_lt same⟩
  rcases Nat.lt_trichotomy (utf8Len front) (utf8Len other) with earlier | equal | later
  · exact earlier
  · obtain ⟨text, rfl⟩ := exists_between same (Nat.le_of_eq equal)
    cases text with
    | nil =>
        rw [List.append_nil] at before
        exact absurd before (Position.lt_irrefl _)
    | cons character text =>
        have positive := character.utf8Size_pos
        rw [utf8Len_append, utf8Len_cons] at equal
        omega
  · have after := Position.le_of_lt (behind_lt_of_lt same.symm later)
    exact absurd (Position.lt_of_lt_of_le before after) (Position.lt_irrefl _)

end Order

end LineTable

end KiwiFront

import Bulletin.Output
import Bulletin.Proofs.Rendering

/-! Sending what is written. A receiver ends with as much of the text as it has
room for, wherever the text is cut, and too little room is the error that counts. -/
namespace Bulletin

theorem Text.toList_byteArray (bytes : ByteArray) : bytes.toList = bytes.data.toList := by
  have hLoop (i : Nat) (found : List UInt8) :
      ByteArray.toList.loop bytes i found = found.reverse ++ bytes.data.toList.drop i := by
    fun_induction ByteArray.toList.loop bytes i found with
    | case1 i found hMore ih =>
        have hInside : i < bytes.data.toList.length := hMore
        have hByte : bytes.get! i = bytes.data.toList[i] := getElem!_pos bytes.data i hMore
        rw [ih, List.drop_eq_getElem_cons hInside, hByte, List.reverse_cons, List.append_assoc,
          List.singleton_append]
    | case2 i found hEnd =>
        have hPast : bytes.data.toList.length ≤ i := Nat.le_of_not_gt hEnd
        rw [List.drop_eq_nil_of_le hPast, List.append_nil]
  exact hLoop 0 []

/-- The bytes of a text are those of its characters, one after the other. -/
theorem Text.toList_toUTF8 (s : String) :
    s.toUTF8.toList = s.toList.flatMap String.utf8EncodeChar := by
  have hBytes : s.toUTF8 = s.toList.utf8Encode := String.utf8Encode_toList.symm
  rw [toList_byteArray, hBytes, List.utf8Encode, List.toList_data_toByteArray]

theorem Text.toUTF8_append (s t : String) :
    (s ++ t).toUTF8.toList = s.toUTF8.toList ++ t.toUTF8.toList := by
  rw [toList_toUTF8, toList_toUTF8, toList_toUTF8, String.toList_append, List.flatMap_append]

namespace WhenFull

/-- Why the sending ends when a receiver is full. -/
def failure : WhenFull → WriteFailure
  | refuse reason => .refused reason
  | ignore => .stalled

end WhenFull

namespace Receiver

/-- Whether all of the bytes can be sent, and if not, why. -/
def verdict (r : Receiver) (bytes : List UInt8) : Except WriteFailure Unit :=
  if bytes.length ≤ r.room then .ok () else .error r.whenFull.failure

/-- The receiver with as many of the bytes as it has room for. Nothing is offered
to it if there are none, and it interrupts nobody. -/
def filled (r : Receiver) (bytes : List UInt8) : Receiver :=
  if bytes = [] then r
  else
    { r with
      received := r.received ++ bytes.take r.room
      room := r.room - bytes.length
      interruptions := 0 }

/-- What comes of the next offer. An interruption costs another one, a receiver
that is full ends the sending, and any other takes what it has room for. -/
theorem send_step (r : Receiver) {bytes : List UInt8} (hBytes : bytes ≠ []) :
    r.send bytes =
      if 0 < r.interruptions then { r with interruptions := r.interruptions - 1 }.send bytes
      else if r.room = 0 then (.error r.whenFull.failure, r)
      else
        { r with
          received := r.received ++ bytes.take r.room
          room := r.room - bytes.length }.send (bytes.drop r.room) := by
  have hSome : ¬ bytes.isEmpty := by simpa using hBytes
  rw [send, if_neg hSome]
  by_cases hCalm : 0 < r.interruptions
  · have hOffer : r.offer bytes = (.interrupted, { r with interruptions := r.interruptions - 1 }) :=
      if_pos hCalm
    rw [if_pos hCalm]
    split <;> simp_all
  · rw [if_neg hCalm]
    by_cases hFull : r.room = 0
    · rw [if_pos hFull]
      cases hWhen : r.whenFull with
      | refuse reason =>
          have hOffer : r.offer bytes = (.refused reason, r) := by
            simp [offer, hCalm, hFull, hBytes, hWhen]
          split <;> simp_all [WhenFull.failure]
      | ignore =>
          have hOffer : r.offer bytes = (.took 0, r) := by
            simp [offer, hCalm, hFull, hBytes, hWhen]
          split <;> simp_all [WhenFull.failure]
    · have hLeft : r.room - min r.room bytes.length = r.room - bytes.length := by omega
      have hOffer : r.offer bytes = (.took (min r.room bytes.length),
          { r with
            received := r.received ++ bytes.take r.room
            room := r.room - bytes.length }) := by
        simp [offer, hCalm, hFull, hLeft]
      have hSomeTaken : min r.room bytes.length ≠ 0 := by
        have := List.length_pos_iff.mpr hBytes
        omega
      rw [if_neg hFull]
      split
      · simp_all
      · simp_all
      · next count next hTook =>
          obtain ⟨hCount, rfl⟩ := Prod.mk.inj (hOffer.symm.trans hTook)
          obtain rfl : min r.room bytes.length = count := by simpa using hCount
          rw [dif_neg hSomeTaken, ← List.drop_eq_drop_min]

/-- The receiver is filled up, however often it interrupts and whatever an offer
of it takes. -/
theorem send_eq (r : Receiver) (bytes : List UInt8) :
    r.send bytes = (r.verdict bytes, r.filled bytes) := by
  by_cases hBytes : bytes = []
  · simp [hBytes, send, verdict, filled]
  · obtain ⟨received, room, interruptions, whenFull⟩ := r
    induction interruptions with
    | zero =>
        rw [send_step _ hBytes, if_neg (Nat.lt_irrefl 0)]
        by_cases hFull : room = 0
        · simp [hFull, hBytes, verdict, filled]
        · by_cases hFits : bytes.length ≤ room
          · simp [hFull, hFits, hBytes, List.drop_eq_nil_of_le hFits, send, verdict, filled]
          · have hRest : bytes.drop room ≠ [] := by simpa using hFits
            have hNoRoom : room - bytes.length = 0 := by omega
            simp [hFull, hFits, hBytes, hNoRoom, send_step _ hRest, verdict, filled]
    | succ interruptions ih =>
        rw [send_step _ hBytes, if_pos (Nat.succ_pos _)]
        simpa [verdict, filled, hBytes] using ih

@[simp]
theorem filled_nil (r : Receiver) : r.filled [] = r := rfl

theorem received_filled (r : Receiver) (bytes : List UInt8) :
    (r.filled bytes).received = r.received ++ bytes.take r.room := by
  unfold filled
  split <;> simp_all

theorem room_filled (r : Receiver) (bytes : List UInt8) :
    (r.filled bytes).room = r.room - bytes.length := by
  unfold filled
  split <;> simp_all

theorem whenFull_filled (r : Receiver) (bytes : List UInt8) :
    (r.filled bytes).whenFull = r.whenFull := by
  unfold filled
  split <;> rfl

theorem filled_append_of_le {r : Receiver} {first : List UInt8} (hFits : first.length ≤ r.room)
    (second : List UInt8) : r.filled (first ++ second) = (r.filled first).filled second := by
  by_cases hFirst : first = []
  · simp [hFirst]
  · by_cases hSecond : second = []
    · simp [hSecond]
    · simp [filled, hFirst, hSecond, List.take_append, List.take_of_length_le hFits,
        Nat.sub_sub]

theorem filled_append_of_lt {r : Receiver} {first : List UInt8} (hFull : r.room < first.length)
    (second : List UInt8) : r.filled (first ++ second) = r.filled first := by
  have hFirst : first ≠ [] := List.ne_nil_of_length_pos (by omega)
  have hTake : (first ++ second).take r.room = first.take r.room :=
    List.take_append_of_le_length hFull.le
  have hNoRoom : r.room - (first.length + second.length) = r.room - first.length := by omega
  simp [filled, hFirst, hTake, hNoRoom]

/-- Bytes that are sent in two parts are sent as if they were one. -/
theorem send_append (r : Receiver) (first second : List UInt8) :
    r.send (first ++ second) =
      match r.send first with
      | (.ok (), next) => next.send second
      | failed => failed := by
  rw [send_eq, send_eq r first]
  by_cases hFits : first.length ≤ r.room
  · have hVerdict : r.verdict (first ++ second) = (r.filled first).verdict second := by
      have hLength : first.length + second.length ≤ r.room ↔
          second.length ≤ r.room - first.length := by omega
      simp [verdict, room_filled, whenFull_filled, hLength]
    have hFirst : r.verdict first = .ok () := if_pos hFits
    rw [hVerdict, filled_append_of_le hFits, hFirst]
    exact (send_eq ..).symm
  · have hVerdict : r.verdict (first ++ second) = .error r.whenFull.failure := by
      refine if_neg ?_
      rw [List.length_append]
      omega
    have hFirst : r.verdict first = .error r.whenFull.failure := if_neg hFits
    rw [hVerdict, filled_append_of_lt (Nat.lt_of_not_le hFits), hFirst]

/-- Where the chunks begin and end makes no difference. -/
theorem sendAll_eq (r : Receiver) (chunks : List String) :
    r.sendAll chunks = r.send (String.join chunks).toUTF8.toList := by
  induction chunks generalizing r with
  | nil => simp [sendAll, send]
  | cons s rest ih =>
      rw [String.join_cons, Text.toUTF8_append, send_append, sendAll]
      split <;> simp_all

end Receiver

namespace Writing

variable {w next : Writing} {text more : String} {stop? : Option Error} {e : Error}

/-- The writing comes to the text before it ends, or before something stops it. -/
structure Gives (w : Writing) (text : String) (stop? : Option Error) : Prop where
  text : String.join w.chunks = text
  stop : w.stop? = stop?

theorem Gives.append (hGives : w.Gives text none) (hNext : next.Gives more stop?) :
    (w ++ next).Gives (text ++ more) stop? := by
  have hAppend : w ++ next = ⟨w.chunks ++ next.chunks, next.stop?⟩ := by
    change Writing.append w next = _
    rw [Writing.append, hGives.stop]
  rw [hAppend]
  exact ⟨by rw [String.join_append, hGives.text, hNext.text], hNext.stop⟩

theorem Gives.append_of_stopped (hGives : w.Gives text (some e)) (next : Writing) :
    (w ++ next).Gives text (some e) := by
  have hAppend : w ++ next = w := by
    change Writing.append w next = _
    rw [Writing.append, hGives.stop]
  rwa [hAppend]

theorem gives_of_toString (hText : w.toString = .ok text) : w.Gives text none := by
  obtain ⟨chunks, stop?⟩ := w
  cases stop? with
  | some e => cases hText
  | none => exact ⟨(Text.intercalate_empty chunks).symm.trans (Except.ok.inj hText), rfl⟩

theorem Gives.toString (hGives : w.Gives text stop?) :
    w.toString = stop?.elim (.ok text) .error := by
  unfold Writing.toString
  rw [hGives.stop]
  cases stop? with
  | some e => rfl
  | none => exact congrArg Except.ok ((Text.intercalate_empty _).trans hGives.text)

/-- Too little room is noticed before anything that stops the writing later. -/
theorem Gives.sendTo (hGives : w.Gives text stop?) (r : Receiver) :
    w.sendTo r =
      (if text.toUTF8.toList.length ≤ r.room then stop?.elim (.ok ()) .error
        else .error (.unwritten r.whenFull.failure), r.filled text.toUTF8.toList) := by
  unfold Writing.sendTo
  rw [Receiver.sendAll_eq, hGives.text, hGives.stop, Receiver.send_eq, Receiver.verdict]
  by_cases hFits : text.toUTF8.toList.length ≤ r.room
  · rw [if_pos hFits, if_pos hFits]
    cases stop? <;> rfl
  · rw [if_neg hFits, if_neg hFits]

end Writing

namespace Value

theorem formatAll?_cons_eq_some_iff {v : Value} {rest : List Value} {texts : List String} :
    formatAll? (v :: rest) = some texts ↔ ∃ first others, v.format? = some first ∧
      formatAll? rest = some others ∧ texts = first :: others := by
  rw [formatAll?]
  cases format? v <;> cases formatAll? rest <;> simp [eq_comm]

/-- What is written of a value before a map in it stops the writing. In a list
these are the items before the first one that is or holds a map, and what is
written of that one. -/
inductive StopsAt : Value → String → Prop where
  | map (entries : List (String × Value)) : StopsAt (.map entries) ""
  | item {before after : List Value} {v : Value} {texts : List String} {text : String}
      (hBefore : formatAll? before = some texts) (hItem : v.StopsAt text) :
      StopsAt (.list (before ++ v :: after)) (", ".intercalate (texts ++ [text]))

mutual

theorem exists_stopsAt : ∀ {v : Value}, v.format? = none → ∃ text, v.StopsAt text
  | nothing, hNone => by cases hNone
  | bool _, hNone => by cases hNone
  | integer _, hNone => by cases hNone
  | float _, hNone => by cases hNone
  | text _, hNone => by cases hNone
  | map entries, _ => ⟨"", .map entries⟩
  | list items, hNone => by
    rw [format?, Option.map_eq_none_iff] at hNone
    obtain ⟨before, v, after, texts, text, rfl, hBefore, hItem⟩ := exists_item_stopsAt hNone
    exact ⟨_, .item hBefore hItem⟩

theorem exists_item_stopsAt : ∀ {items : List Value}, formatAll? items = none →
    ∃ before v after texts text, items = before ++ v :: after ∧
      formatAll? before = some texts ∧ v.StopsAt text
  | [], hNone => by cases hNone
  | v :: rest, hNone => by
    cases hText : v.format? with
    | none =>
        obtain ⟨text, hItem⟩ := exists_stopsAt hText
        exact ⟨[], v, rest, [], text, rfl, rfl, hItem⟩
    | some first =>
        have hRest : formatAll? rest = none := by
          cases hOthers : formatAll? rest with
          | none => rfl
          | some others =>
              rw [formatAll?_cons_eq_some_iff.mpr ⟨first, others, hText, hOthers, rfl⟩] at hNone
              cases hNone
        obtain ⟨before, w, after, texts, text, rfl, hBefore, hItem⟩ := exists_item_stopsAt hRest
        exact ⟨v :: before, w, after, first :: texts, text, rfl,
          formatAll?_cons_eq_some_iff.mpr ⟨first, texts, hText, hBefore, rfl⟩, hItem⟩

end

theorem gives_of_format? {v : Value} {text : String} (hText : v.format? = some text) (e : Error) :
    (v.write e).Gives text none :=
  Writing.gives_of_toString (by rw [toString_write, hText]; rfl)

/-- Behind items that have texts, a list is written up to the map that stops it. -/
theorem writeRest_of_stopsAt {e : Error} {v : Value} {text : String} {before : List Value}
    {texts : List String} (hBefore : formatAll? before = some texts)
    (hItem : (v.write e).Gives text (some e)) (after : List Value) :
    (writeRest e (before ++ v :: after)).Gives
      (String.join ((texts ++ [text]).map (", " ++ ·))) (some e) := by
  have hComma {w : Value} {first : String} {stop? : Option Error}
      (hWritten : (w.write e).Gives first stop?) :
      (.text ", " ++ w.write e : Writing).Gives (", " ++ first) stop? :=
    (Writing.gives_of_toString (Writing.toString_text ", ")).append hWritten
  induction before generalizing texts with
  | nil =>
      cases hBefore
      simpa [writeRest] using (hComma hItem).append_of_stopped (writeRest e after)
  | cons w before ih =>
      obtain ⟨first, others, hText, hOthers, rfl⟩ := formatAll?_cons_eq_some_iff.mp hBefore
      have hHere := hComma (gives_of_format? hText e)
      simpa [writeRest, String.append_assoc] using hHere.append (ih hOthers)

theorem write_of_stopsAt {v : Value} {text : String} (hStops : v.StopsAt text) (e : Error) :
    (v.write e).Gives text (some e) := by
  induction hStops with
  | map entries => exact ⟨rfl, rfl⟩
  | @item before after v texts text hBefore hItem ih =>
      cases before with
      | nil =>
          cases hBefore
          simpa [write, writeItems] using ih.append_of_stopped (writeRest e after)
      | cons w before =>
          obtain ⟨first, others, hText, hOthers, rfl⟩ := formatAll?_cons_eq_some_iff.mp hBefore
          rw [List.cons_append, List.cons_append, Text.intercalate_cons]
          exact (gives_of_format? hText e).append (writeRest_of_stopsAt hOthers ih after)

end Value

/-- The text that pieces come to before the writing ends. The first name that is
not bound stops it, and so does the first value that is or holds a map, behind
what is written of that value. -/
inductive Piece.Output (k : Context) : List Piece → String → Option Complaint → Prop where
  | finished : Output k [] "" none
  | prints {p : Piece} {rest : List Piece} {text more : String} {stop? : Option Complaint}
      (hPrints : p.Prints k text) (hRest : Output k rest more stop?) :
      Output k (p :: rest) (text ++ more) stop?
  | unbound {name : String} {span : Span} {rest : List Piece} (hBound : k.get? name = none) :
      Output k (.reference name span :: rest) "" (some ⟨.unresolved name, span⟩)
  | map {name text : String} {span : Span} {rest : List Piece} {v : Value}
      (hBound : k.get? name = some v) (hMap : v.StopsAt text) :
      Output k (.reference name span :: rest) text (some ⟨.mapRendered name, span⟩)

open Piece (Output)

theorem Piece.exists_output (k : Context) (pieces : List Piece) :
    ∃ text stop?, Output k pieces text stop? := by
  induction pieces with
  | nil => exact ⟨"", none, .finished⟩
  | cons p rest ih =>
      obtain ⟨more, stop?, hRest⟩ := ih
      cases p with
      | literal text => exact ⟨_, stop?, .prints (.literal text) hRest⟩
      | reference name span =>
          cases hBound : k.get? name with
          | none => exact ⟨"", _, .unbound hBound⟩
          | some v =>
              cases hText : v.format? with
              | none =>
                  obtain ⟨text, hMap⟩ := Value.exists_stopsAt hText
                  exact ⟨text, _, .map hBound hMap⟩
              | some text => exact ⟨_, stop?, .prints (.reference hBound hText) hRest⟩

namespace Template

variable {t : Template} {k : Context} {pieces : List Piece} {text : String}
  {stop? : Option Complaint}

theorem write_of_output (t : Template) (hOutput : Output k pieces text stop?) :
    (t.write k pieces).Gives text (stop?.map fun c => t.errorAt c.problem c.span) := by
  induction hOutput with
  | finished => exact ⟨rfl, rfl⟩
  | prints hPrints _ ih =>
      exact (Writing.gives_of_toString (writePiece_of_prints hPrints)).append ih
  | @unbound name span rest hBound =>
      have hHere : (t.writePiece k (.reference name span)).Gives ""
          (some (t.errorAt (.unresolved name) span)) := by
        rw [writePiece, lookup, hBound]
        exact ⟨rfl, rfl⟩
      exact hHere.append_of_stopped (t.write k rest)
  | @map name text span rest v hBound hMap =>
      have hHere : (t.writePiece k (.reference name span)).Gives text
          (some (t.errorAt (.mapRendered name) span)) := by
        rw [writePiece, lookup, hBound]
        exact Value.write_of_stopsAt hMap _
      exact hHere.append_of_stopped (t.write k rest)

/-- Writing to a receiver is writing to a text that is cut off where the receiver
is full. It has taken as many bytes as it has room for. If that is all of them, the
outcome is that of writing to a text, and otherwise the error is that of the
receiver, whatever would have stopped the writing later. The receiver may interrupt
the sender before it takes anything, and it makes no difference into which chunks
the text is divided. -/
theorem sendTo_cut_off (t : Template) (k : Context) (pieces : List Piece) (r : Receiver) :
    (∃ text stop?, Output k pieces text stop?) ∧
    ∀ text stop?, Output k pieces text stop? →
      t.renderPieces k pieces =
        stop?.elim (.ok text) (fun c => .error (t.errorAt c.problem c.span)) ∧
      ((t.write k pieces).sendTo r).2.received =
        r.received ++ text.toUTF8.toList.take r.room ∧
      (text.toUTF8.toList.length ≤ r.room →
        ((t.write k pieces).sendTo r).1 = (t.renderPieces k pieces).map fun _ => ()) ∧
      (r.room < text.toUTF8.toList.length →
        ((t.write k pieces).sendTo r).1 = .error (.unwritten r.whenFull.failure)) ∧
      ∀ w : Writing, String.join w.chunks = text → w.stop? = (t.write k pieces).stop? →
        w.sendTo r = (t.write k pieces).sendTo r := by
  refine ⟨Piece.exists_output k pieces, ?_⟩
  intro text stop? hOutput
  have hGives := t.write_of_output hOutput
  have hSent := hGives.sendTo r
  have hRender : t.renderPieces k pieces =
      stop?.elim (.ok text) (fun c => .error (t.errorAt c.problem c.span)) := by
    rw [renderPieces, hGives.toString]
    cases stop? <;> rfl
  refine ⟨hRender, ?_, ?_, ?_, ?_⟩
  · rw [hSent]
    exact r.received_filled _
  · intro hFits
    rw [hSent, if_pos hFits, hRender]
    cases stop? <;> rfl
  · intro hFull
    rw [hSent, if_neg (Nat.not_le.mpr hFull)]
  · intro w hText hStop
    have hSame : w.Gives text _ := ⟨hText, hStop.trans hGives.stop⟩
    rw [hSent, hSame.sendTo]

set_option maxRecDepth 2000 in
theorem sendTo_cut_off_early :
    ∃ t, (Engine.mk .standard .bailOut).parse "a${b}".toList ⟨"notice", none⟩ = .ok t ∧
      t.resolve .empty = .ok [.literal "a", .reference "b" ⟨1, 5⟩] ∧
      let w := t.write (.ofList [("b", .list [.text "x", .map []])])
        [.literal "a", .reference "b" ⟨1, 5⟩]
      (w.sendTo ⟨[], 3, 1, .refuse "pipe closed"⟩).2.received = [97, 120, 44] ∧
      (w.sendTo ⟨[], 3, 1, .refuse "pipe closed"⟩).1 =
        .error (.unwritten (.refused "pipe closed")) ∧
      (w.sendTo ⟨[], 4, 0, .ignore⟩).1 = .error (t.errorAt (.mapRendered "b") ⟨1, 5⟩) := by
  refine ⟨⟨⟨"notice", none⟩, "a${b}".toList, [.literal "a" ⟨0, 1⟩, .variable "b" ⟨1, 5⟩]⟩,
    by with_unfolding_all rfl, by with_unfolding_all rfl, ?_⟩
  have hMap : (Value.list ([.text "x"] ++ .map [] :: [])).StopsAt (", ".intercalate ["x", ""]) :=
    .item (show Value.formatAll? [.text "x"] = some ["x"] from rfl) (.map [])
  have hOutput : Output (.ofList [("b", .list [.text "x", .map []])])
      [.literal "a", .reference "b" ⟨1, 5⟩] ("a" ++ "x, ") (some ⟨.mapRendered "b", ⟨1, 5⟩⟩) :=
    .prints (.literal "a") (.map rfl hMap)
  have hBytes : ("a" ++ "x, ").toUTF8.toList = [97, 120, 44, 32] := by
    rw [Text.toList_toUTF8]
    decide
  obtain ⟨-, hCut⟩ := sendTo_cut_off ⟨⟨"notice", none⟩, "a${b}".toList,
    [.literal "a" ⟨0, 1⟩, .variable "b" ⟨1, 5⟩]⟩ (.ofList [("b", .list [.text "x", .map []])])
    [.literal "a", .reference "b" ⟨1, 5⟩] ⟨[], 3, 1, .refuse "pipe closed"⟩
  obtain ⟨-, hReceived, -, hFull, -⟩ := hCut _ _ hOutput
  obtain ⟨-, hAll⟩ := sendTo_cut_off ⟨⟨"notice", none⟩, "a${b}".toList,
    [.literal "a" ⟨0, 1⟩, .variable "b" ⟨1, 5⟩]⟩ (.ofList [("b", .list [.text "x", .map []])])
    [.literal "a", .reference "b" ⟨1, 5⟩] ⟨[], 4, 0, .ignore⟩
  obtain ⟨hRender, -, hFits, -⟩ := hAll _ _ hOutput
  rw [hBytes] at hReceived hFull hFits
  refine ⟨hReceived, hFull (by decide), ?_⟩
  rw [hFits (by decide), hRender]
  rfl

end Template

end Bulletin

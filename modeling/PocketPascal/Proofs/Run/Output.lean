import PocketPascal.CommandLine
import PocketPascal.Proofs.Decimal.Texts
import PocketPascal.Proofs.Run.Guarantees
import PocketPascal.Proofs.Text.Bytes

/-!
# What the output tells about the result

A run that ends well writes one line for each variable, in the order of the bytes of the names. The
names come from the tokens of the program, so no name has a blank or a line break, and no text of a
value has a line break either. Therefore the lines can be taken apart again: the output determines
the names and, by the texts of the values, their kinds and the whole numbers among them.
-/

namespace PocketPascal

/-! ## Taking the lines apart -/

/-- The first `a` of a list divides it in one way. -/
theorem append_cons_inj {α : Type} {a : α} {s s' t t' : List α} (hs : a ∉ s) (hs' : a ∉ s')
    (h : s ++ a :: t = s' ++ a :: t') : s = s' ∧ t = t' := by
  induction s generalizing s' with
  | nil =>
    cases s' with
    | nil => exact ⟨rfl, (List.cons.inj h).2⟩
    | cons b s' => exact absurd List.mem_cons_self ((List.cons.inj h).1 ▸ hs')
  | cons b s ih =>
    cases s' with
    | nil => exact absurd List.mem_cons_self ((List.cons.inj h).1 ▸ hs)
    | cons b' s' =>
      obtain ⟨rfl, hrest⟩ := List.cons.inj h
      obtain ⟨rfl, rfl⟩ := ih (fun hmem => hs (List.mem_cons_of_mem _ hmem))
        (fun hmem => hs' (List.mem_cons_of_mem _ hmem)) hrest
      exact ⟨rfl, rfl⟩

/-- The line for a variable with its value. -/
def bindingLine (b : String × Value) : String := b.1 ++ " = " ++ b.2.text

theorem toList_bindingLine (b : String × Value) :
    (bindingLine b).toList = b.1.toList ++ ' ' :: '=' :: ' ' :: b.2.text.toList := by
  simp [bindingLine]

/-- Lines for variables whose names have no blank determine the names and the texts of the values. -/
theorem bindings_of_lines {bs bs' : List (String × Value)} (hbs : ∀ b ∈ bs, ' ' ∉ b.1.toList)
    (hbs' : ∀ b ∈ bs', ' ' ∉ b.1.toList)
    (h : bs.flatMap (fun b => (bindingLine b).toList ++ ['\n']) =
      bs'.flatMap fun b => (bindingLine b).toList ++ ['\n']) :
    bs.map (fun b => (b.1, b.2.text)) = bs'.map fun b => (b.1, b.2.text) := by
  induction bs generalizing bs' with
  | nil =>
    cases bs' with
    | nil => rfl
    | cons b' bs' => simp [toList_bindingLine] at h
  | cons b bs ih =>
    cases bs' with
    | nil => simp [toList_bindingLine] at h
    | cons b' bs' =>
      rw [List.flatMap_cons, List.flatMap_cons, toList_bindingLine, toList_bindingLine] at h
      simp only [List.append_assoc, List.cons_append, List.nil_append] at h
      -- the first blank ends the name, and the first line break after that ends the text
      obtain ⟨hname, hrest⟩ := append_cons_inj (hbs b List.mem_cons_self)
        (hbs' b' List.mem_cons_self) h
      obtain ⟨htext, hmore⟩ := append_cons_inj b.2.figures_text.not_newline
        b'.2.figures_text.not_newline (List.cons.inj (List.cons.inj hrest).2).2
      have hbindings := ih (fun c hc => hbs c (List.mem_cons_of_mem _ hc))
        (fun c hc => hbs' c (List.mem_cons_of_mem _ hc)) hmore
      rw [List.map_cons, List.map_cons, hbindings, String.toList_inj.1 hname,
        String.toList_inj.1 htext]

/-! ## The output of a run -/

/-- The output consists of one line for each variable, with its name and the text of its value; the
names increase in the order of their bytes. -/
structure Invocation.Lists (globals : Globals) (output : String) (bs : List (String × Value)) :
    Prop where
  /-- The variables are those of the result, with their values. -/
  bindings : ∀ name value, (name, value) ∈ bs ↔ globals[name]? = some value
  /-- The names increase. -/
  increasing : bs.Pairwise fun b b' => Text.bytes b.1 < Text.bytes b'.1
  /-- Each variable has a line, and there is nothing else. -/
  output : output = String.join (bs.map fun b => bindingLine b ++ "\n")
  /-- The only line break of a line is at its end. -/
  line : ∀ b ∈ bs, '\n' ∉ (bindingLine b).toList

/-- The two results have the same variables, each with the same kind of number, and with the same
value if it is a whole number. -/
structure Globals.SameWhole (globals globals' : Globals) : Prop where
  names : ∀ x, x ∈ globals ↔ x ∈ globals'
  kinds : ∀ (x : String) (value value' : Value), globals[x]? = some value →
    globals'[x]? = some value' → value.isReal = value'.isReal
  whole : ∀ (x : String) (n : Int64),
    globals[x]? = some (.integer n) ↔ globals'[x]? = some (.integer n)

theorem not_isAlphanum_of_mem_word {text : List Char} (h : IsWord text) {c : Char}
    (hc : c.isAlphanum = false) : c ∉ text := by
  obtain ⟨d, ds, rfl, hd, hds⟩ := h
  intro hmem
  have hd' : d.isAlphanum := by rw [Char.isAlphanum, hd, Bool.true_or]
  rcases List.mem_cons.1 hmem with rfl | hmem
  · rw [hc] at hd'
    cases hd'
  · rw [hds c hmem] at hc
    cases hc

theorem Run.isWord_of_mem {options : Options} {source : String} {globals : Globals}
    (h : (ofSource options source).result = .ok globals) : ∀ x ∈ globals, IsWord x.toList := by
  obtain ⟨p, hp, hr⟩ := run_of_ofSource h
  intro x hx
  rcases (Assignment.mem_of_run x hr).1 hx with htarget | hbefore
  · obtain ⟨a, ha, rfl⟩ := List.mem_map.1 htarget
    exact Program.isWord hp a ha a.target List.mem_cons_self
  · exact absurd hbefore Std.ExtTreeMap.not_mem_empty

namespace Invocation

variable {globals globals' : Globals}

theorem mem_of_mem_toList {b : String × Value} (h : b ∈ globals.toList) : b.1 ∈ globals :=
  Std.ExtTreeMap.mem_iff_isSome_getElem?.2
    (Option.isSome_of_eq_some (Std.ExtTreeMap.mem_toList_iff_getElem?_eq_some.1 h))

theorem lists_globalsText (h : ∀ x ∈ globals, IsWord x.toList) :
    Lists globals (globalsText globals) globals.toList where
  bindings _ _ := Std.ExtTreeMap.mem_toList_iff_getElem?_eq_some
  increasing := by
    have hordered : globals.toList.Pairwise fun b b' => compare b.1 b'.1 = .lt :=
      Std.ExtTreeMap.ordered_keys_toList
    exact hordered.imp fun hlt => Text.bytes_lt_bytes (compareOfLessAndEq_eq_lt.1 hlt)
  output := rfl
  line b hb := by
    -- a name has letters and digits only, and the text of a value only characters of numbers
    have hname := not_isAlphanum_of_mem_word (h b.1 (mem_of_mem_toList hb)) (c := '\n') rfl
    have htext := b.2.figures_text.not_newline
    rw [toList_bindingLine]
    simp [hname, htext]

theorem bindings_of_globalsText (h : ∀ x ∈ globals, IsWord x.toList)
    (h' : ∀ x ∈ globals', IsWord x.toList) (heq : globalsText globals = globalsText globals') :
    globals.toList.map (fun b => (b.1, b.2.text)) =
      globals'.toList.map fun b => (b.1, b.2.text) := by
  have hblank : ∀ globals : Globals, (∀ x ∈ globals, IsWord x.toList) →
      ∀ b ∈ globals.toList, ' ' ∉ b.1.toList := fun _ h b hb =>
    not_isAlphanum_of_mem_word (h b.1 (mem_of_mem_toList hb)) rfl
  have hlines := congrArg String.toList heq
  unfold globalsText at hlines
  rw [String.toList_join, String.toList_join, List.flatMap_map, List.flatMap_map] at hlines
  exact bindings_of_lines (hblank _ h) (hblank _ h') (by simpa [bindingLine] using hlines)

/-- If the outputs are equal, each variable of the one result is one of the other one, and its value
has the same text there. -/
theorem counterpart_of_globalsText (h : ∀ x ∈ globals, IsWord x.toList)
    (h' : ∀ x ∈ globals', IsWord x.toList) (heq : globalsText globals = globalsText globals')
    {x : String} {value : Value} (hx : globals[x]? = some value) :
    ∃ value', globals'[x]? = some value' ∧ value.text = value'.text := by
  have hmem : (x, value.text) ∈ globals'.toList.map fun b => (b.1, b.2.text) := by
    rw [← bindings_of_globalsText h h' heq]
    exact List.mem_map.2 ⟨_, Std.ExtTreeMap.mem_toList_iff_getElem?_eq_some.2 hx, rfl⟩
  obtain ⟨⟨y, value'⟩, hy, hshown⟩ := List.mem_map.1 hmem
  obtain ⟨hname, htext⟩ := Prod.mk.inj hshown
  subst hname
  exact ⟨value', Std.ExtTreeMap.mem_toList_iff_getElem?_eq_some.1 hy, htext.symm⟩

theorem mem_of_globalsText (h : ∀ x ∈ globals, IsWord x.toList)
    (h' : ∀ x ∈ globals', IsWord x.toList) (heq : globalsText globals = globalsText globals')
    {x : String} (hx : x ∈ globals) : x ∈ globals' := by
  obtain ⟨value', hx', -⟩ :=
    counterpart_of_globalsText h h' heq (Std.ExtTreeMap.getElem?_eq_some_getElem hx)
  exact Std.ExtTreeMap.mem_iff_isSome_getElem?.2 (Option.isSome_of_eq_some hx')

theorem integer_of_globalsText (h : ∀ x ∈ globals, IsWord x.toList)
    (h' : ∀ x ∈ globals', IsWord x.toList) (heq : globalsText globals = globalsText globals')
    {x : String} {n : Int64} (hx : globals[x]? = some (.integer n)) :
    globals'[x]? = some (.integer n) := by
  obtain ⟨value', hx', htext⟩ := counterpart_of_globalsText h h' heq hx
  rw [hx', Value.eq_integer_of_text htext]

/-- Equal outputs show the same result, up to the values of floating-point numbers. -/
theorem sameWhole_of_globalsText (h : ∀ x ∈ globals, IsWord x.toList)
    (h' : ∀ x ∈ globals', IsWord x.toList) (heq : globalsText globals = globalsText globals') :
    globals.SameWhole globals' where
  names _ := ⟨mem_of_globalsText h h' heq, mem_of_globalsText h' h heq.symm⟩
  kinds x value value' hx hx' := by
    obtain ⟨value'', hx'', htext⟩ := counterpart_of_globalsText h h' heq hx
    rw [hx'] at hx''
    cases hx''
    exact Value.isReal_of_text htext
  whole _ _ := ⟨integer_of_globalsText h h' heq, integer_of_globalsText h' h heq.symm⟩

end Invocation

namespace CommandLine

/-- The arguments ask for a run on a source text, and the run ends well with these variables. -/
def Succeeds (args : List String) (file : String → Option String) (globals : Globals) : Prop :=
  ∃ i text, command? args = some (.run i) ∧ i.path?.elim (some i.contents) file = some text ∧
    (Run.ofSource i.options text).result = .ok globals

variable {args args' : List String} {file file' : String → Option String}
  {globals globals' : Globals}

theorem Succeeds.report (h : Succeeds args file globals) :
    (report args file).status = 0 ∧
      (report args file).output = Invocation.globalsText globals := by
  obtain ⟨i, text, hcommand, hsource, hresult⟩ := h
  simp only [CommandLine.report, hcommand, hsource, Invocation.report, hresult, and_self]

theorem Succeeds.isWord (h : Succeeds args file globals) : ∀ x ∈ globals, IsWord x.toList := by
  obtain ⟨i, text, -, -, hresult⟩ := h
  exact Run.isWord_of_mem hresult

/-- A run whose exit status is zero has ended well. -/
theorem succeeds_of_status {i : Invocation} (hcommand : command? args = some (.run i))
    (h : (report args file).status = 0) : ∃ globals, Succeeds args file globals := by
  simp only [report, hcommand, Invocation.report] at h
  cases hsource : i.path?.elim (some i.contents) file with
  | none => simp [hsource] at h
  | some text =>
    cases hresult : (Run.ofSource i.options text).result with
    | error cause => simp [hsource, hresult] at h
    | ok globals => exact ⟨globals, i, text, hcommand, hsource, hresult⟩

/-- The output of a run that ends well lists its variables in the order of the bytes of their names,
and it determines the result: two such runs with the same output have the same variables, each with
the same kind of number, and the same whole numbers. -/
theorem result_of_output :
    (∀ args file globals, Succeeds args file globals → (report args file).status = 0 ∧
      ∃ bs, Invocation.Lists globals (report args file).output bs) ∧
    ∀ args args' file file' globals globals', Succeeds args file globals →
      Succeeds args' file' globals' → (report args file).output = (report args' file').output →
      globals.SameWhole globals' := by
  constructor
  · intro args file globals h
    obtain ⟨hstatus, houtput⟩ := h.report
    rw [houtput]
    exact ⟨hstatus, globals.toList, Invocation.lists_globalsText h.isWord⟩
  · intro args args' file file' globals globals' h h' heq
    rw [h.report.2, h'.report.2] at heq
    exact Invocation.sameWhole_of_globalsText h.isWord h'.isWord heq

/-- The arguments for a run on a program that assigns its variables in another order than that of
their names. -/
def inlineRun : List String :=
  ["PROGRAM p; VAR b2, B : INTEGER; r : REAL; " ++
    "BEGIN b2 := -9223372036854775807 - 1; B := 7; r := 1 / 4 END."]

/-- The arguments for a run on a file, without analysis. -/
def fileRun : List String := ["-f", "--skip-analysis", "p.pas"]

/-- The only file, with a program that computes the same in another way. -/
def sameInFile (path : String) : Option String :=
  if path = "p.pas" then
    some <| "{ the same } PROGRAM q; BEGIN r := 0.25; B := 3 + 4; " ++
      "b2 := -(9223372036854775807) - B DIV 5 END."
  else none

/-- The two runs write the same lines, a capital letter first. -/
theorem result_of_output_samples :
    report inlineRun sameInFile = ⟨0, "B = 7\nb2 = -9223372036854775808\nr = 0.25\n", ""⟩ ∧
      report fileRun sameInFile = report inlineRun sameInFile ∧
      ∃ globals globals', Succeeds inlineRun sameInFile globals ∧
        Succeeds fileRun sameInFile globals' ∧ globals.SameWhole globals' ∧
        ∃ bs, Invocation.Lists globals (report inlineRun sameInFile).output bs := by
  have hinline : report inlineRun sameInFile =
      ⟨0, "B = 7\nb2 = -9223372036854775808\nr = 0.25\n", ""⟩ := by decide +kernel
  have hfile : report fileRun sameInFile =
      ⟨0, "B = 7\nb2 = -9223372036854775808\nr = 0.25\n", ""⟩ := by decide +kernel
  obtain ⟨i, hcommand⟩ : ∃ i, command? inlineRun = some (.run i) := ⟨_, rfl⟩
  obtain ⟨i', hcommand'⟩ : ∃ i, command? fileRun = some (.run i) := ⟨_, rfl⟩
  obtain ⟨globals, h⟩ := succeeds_of_status hcommand (by rw [hinline])
  obtain ⟨globals', h'⟩ := succeeds_of_status hcommand' (by rw [hfile])
  have hsame : report inlineRun sameInFile = report fileRun sameInFile := hinline.trans hfile.symm
  have heq : (report inlineRun sameInFile).output = (report fileRun sameInFile).output := by
    rw [hsame]
  exact ⟨hinline, hsame.symm, globals, globals', h, h', result_of_output.2 _ _ _ _ _ _ h h' heq,
    (result_of_output.1 _ _ _ h).2⟩

end CommandLine

end PocketPascal

import CodeMarkup.Proofs.Install.Document
import CodeMarkup.Proofs.Install.Sharing

/-!
# Records on disk

A record that was saved in a directory is loaded from it again, whole and as it was. And whatever a record's file may
hold, either it is the text of a record, and this record is loaded, or nothing is: there is no loading of a part of a
text (`loadRecord_saved_or_whole`).
-/

namespace CodeMarkup.Site

open InstallRecord (Document)

variable {disk after : Disk} {current : Place} {directory text : String} {record : InstallRecord}

/-- A record that was saved is the text of its file. -/
theorem readText_of_saveRecord (h : saveRecord disk current directory record = .ok after) :
    after.readText current (recordPath directory) = .ok record.write := by
  obtain ⟨between, -, hwrite⟩ := ok_of_bind h
  exact Disk.readText_of_writeText (by decide) hwrite

/-- The text of a record is loaded as that record. -/
theorem loadRecord_of_document (htext : disk.readText current (recordPath directory) = .ok text)
    (h : Document record text) : loadRecord disk current directory = record := by
  rw [loadRecord, htext]
  exact congrArg (·.getD .empty) (InstallRecord.read?_eq_some_iff.mpr h)

/-- A text that is not the text of a record is loaded as no install. -/
theorem loadRecord_of_not_document (htext : disk.readText current (recordPath directory) = .ok text)
    (h : ∀ record, ¬ Document record text) : loadRecord disk current directory = .empty := by
  have hnone : InstallRecord.read? text = none :=
    Option.eq_none_iff_forall_ne_some.mpr fun record hread => h record (InstallRecord.read?_eq_some_iff.mp hread)
  rw [loadRecord, htext]
  exact congrArg (·.getD .empty) hnone

/-- **A saved record is loaded as it was, and a text wholly or not at all.**

Loading after a save that succeeded gives the record that was saved, with each name, interface version and time.
Loading gives the record that the file is the text of, if it is the text of one, and the empty record if it is not or
cannot be read. -/
theorem loadRecord_saved_or_whole (disk : Disk) (current : Place) (directory : String) :
    (∀ record after, record.Distinct → saveRecord disk current directory record = .ok after →
      loadRecord after current directory = record) ∧
    (∀ text, disk.readText current (recordPath directory) = .ok text →
      (∀ record, Document record text → loadRecord disk current directory = record) ∧
      ((∀ record, ¬ Document record text) → loadRecord disk current directory = .empty)) ∧
    ∀ fault, disk.readText current (recordPath directory) = .error fault →
      loadRecord disk current directory = .empty := by
  refine ⟨?saved, ?whole, ?unreadable⟩
  case saved =>
    intro record after hdistinct hsave
    have hdocument := InstallRecord.read?_eq_some_iff.mp (InstallRecord.read?_write hdistinct)
    exact loadRecord_of_document (readText_of_saveRecord hsave) hdocument
  case whole =>
    exact fun text htext => ⟨fun record => loadRecord_of_document htext, loadRecord_of_not_document htext⟩
  case unreadable =>
    intro fault hfault
    rw [loadRecord, hfault]

/-- Two notes, on names with quotation marks, backslashes and controls, one of them of the largest numbers. -/
def oddRecord : InstallRecord :=
  ⟨[("a\"b\\c\n", ⟨14, 1700000000⟩), ("\x01é𝄞/", ⟨4294967295, 18446744073709551615⟩)]⟩

/-- A text that writes a record as an array, and in it one name twice, up to the last bracket. -/
def oddText : String :=
  "[\x7b\"a\": [14, 1],\n \"b\": \x7b\"installed_at\": 2, \"x\": [null, -0.5e+1], \"abi_version\": 13\x7d,
    \"\\u0061\": [15, 3]\x7d"

/-- A disk with a directory in which a text stands for a record. -/
def diskWith (text : String) : Disk :=
  ⟨[(["g"], .directory), (["g", "metadata.json"], .file (.text text))]⟩

/-- The record is loaded as it was. Of two notes under one name the later is loaded, and with one bracket less none. -/
theorem loadRecord_saved_or_whole_odd :
    (∃ after, saveRecord .blank [] "g" oddRecord = .ok after ∧ loadRecord after [] "g" = oddRecord) ∧
    loadRecord (diskWith (oddText ++ "]")) [] "g" = ⟨[("a", ⟨15, 3⟩), ("b", ⟨13, 2⟩)]⟩ ∧
    loadRecord (diskWith oddText) [] "g" = .empty := by
  obtain ⟨hsaved, -, -⟩ := loadRecord_saved_or_whole .blank [] "g"
  obtain ⟨-, hwhole, -⟩ := loadRecord_saved_or_whole (diskWith (oddText ++ "]")) [] "g"
  obtain ⟨-, hcut, -⟩ := loadRecord_saved_or_whole (diskWith oddText) [] "g"
  have hdistinct : oddRecord.Distinct := by
    rw [InstallRecord.Distinct]
    decide
  have hnone : InstallRecord.read? oddText = none := by decide +kernel
  refine ⟨⟨_, rfl, hsaved oddRecord _ hdistinct rfl⟩, ?_, ?_⟩
  · exact (hwhole (oddText ++ "]") rfl).1 _ (InstallRecord.read?_eq_some_iff.mp (by decide +kernel))
  · refine (hcut _ rfl).2 fun record hdocument => ?_
    rw [InstallRecord.read?_eq_some_iff.mpr hdocument] at hnone
    cases hnone

end CodeMarkup.Site

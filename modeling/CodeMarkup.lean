import CodeMarkup.Text.Blank
import CodeMarkup.Text.Quoted
import CodeMarkup.Text.Utf8
import CodeMarkup.Text.Escape
import CodeMarkup.Text.Line
import CodeMarkup.LineSet.Spec
import CodeMarkup.Highlight.Span
import CodeMarkup.Theme.Builtin
import CodeMarkup.Markup.Listing
import CodeMarkup.Language.Detect
import CodeMarkup.Language.Catalog
import CodeMarkup.Language.Supply
import CodeMarkup.Disk.Directory
import CodeMarkup.Disk.Library
import CodeMarkup.Tool.Scripted
import CodeMarkup.Install.RecordFormat
import CodeMarkup.Install.Installer
import CodeMarkup.Grammar.Resolution
import CodeMarkup.Grammar.Table
import CodeMarkup.Render.Renderer
import CodeMarkup.Render.Step
import CodeMarkup.Render.Display
import CodeMarkup.Rehearsal.Session
import CodeMarkup.Settings.Config
import CodeMarkup.CommandLine.Program
import CodeMarkup.Main
import CodeMarkup.Proofs.LineSet.Canonical
import CodeMarkup.Proofs.LineSet.Edits
import CodeMarkup.Proofs.Grammar.Growth
import CodeMarkup.Proofs.Grammar.Overlap
import CodeMarkup.Proofs.Highlight.Outermost
import CodeMarkup.Proofs.Studio.Move
import CodeMarkup.Proofs.Studio.Publication
import CodeMarkup.Proofs.Studio.Engine
import CodeMarkup.Proofs.Studio.LoadMove
import CodeMarkup.Proofs.Studio.LoadOnce
import CodeMarkup.Proofs.Studio.Dependencies
import CodeMarkup.Proofs.Markup.Slicing
import CodeMarkup.Proofs.Markup.VisibleText
import CodeMarkup.Proofs.Markup.Inert
import CodeMarkup.Proofs.Markup.BlockForm
import CodeMarkup.Proofs.LineSet.Covered
import CodeMarkup.Proofs.LineSet.Iteration
import CodeMarkup.Proofs.Markup.Numbered
import CodeMarkup.Proofs.Render.Addressed
import CodeMarkup.Proofs.Language.Chain
import CodeMarkup.Proofs.Grammar.Meaning
import CodeMarkup.Proofs.Studio.Replies
import CodeMarkup.Proofs.Studio.Missing
import CodeMarkup.Proofs.Studio.Faithful
import CodeMarkup.Proofs.Studio.Warm
import CodeMarkup.Proofs.Studio.Returns
import CodeMarkup.Proofs.LineSet.Extensional
import CodeMarkup.Proofs.Studio.Flag
import CodeMarkup.Proofs.Disk.Reach
import CodeMarkup.Proofs.Install.Runs
import CodeMarkup.Proofs.Install.Usable
import CodeMarkup.Proofs.Install.RecordText
import CodeMarkup.Proofs.Install.Sharing
import CodeMarkup.Proofs.LineSet.Accepted
import CodeMarkup.Proofs.Studio.SharedEngine
import CodeMarkup.Proofs.Json.Tokens
import CodeMarkup.Proofs.Json.Values
import CodeMarkup.Proofs.Json.Objects
import CodeMarkup.Proofs.Install.Document
import CodeMarkup.Proofs.Install.Stored
import CodeMarkup.Proofs.Grammar.Whole
import CodeMarkup.Proofs.Render.Fresh
import CodeMarkup.Proofs.CommandLine.Outcome
import CodeMarkup.Proofs.Render.Announced
import CodeMarkup.Proofs.Studio.Effects
import CodeMarkup.Proofs.Rehearsal.Runs
import CodeMarkup.Proofs.Markup.Grouping
import CodeMarkup.Proofs.Grammar.FirstFault
import CodeMarkup.Proofs.Highlight.Tiling
import CodeMarkup.Proofs.Markup.References
import CodeMarkup.Proofs.Studio.Names
import CodeMarkup.Proofs.Disk.Spared
import CodeMarkup.Proofs.Install.Course
import CodeMarkup.Proofs.Install.Confined
import CodeMarkup.Proofs.Install.Again
import CodeMarkup.Proofs.Install.Failed
import CodeMarkup.Proofs.Render.Choice
import CodeMarkup.Proofs.Theme.Hexadecimal
import CodeMarkup.Proofs.Highlight.Callee
import CodeMarkup.Proofs.Settings.LastWrite
import CodeMarkup.Proofs.Language.FileName
import CodeMarkup.Proofs.Language.Registered
import CodeMarkup.Proofs.Render.Independent
import CodeMarkup.Proofs.Markup.LineIndex
import CodeMarkup.Proofs.Markup.Annotated

import SuiteDraft.Main
import SuiteDraft.CommandLine.Serve
import SuiteDraft.Component.Reading
import SuiteDraft.Server.Routes
import SuiteDraft.Text.Quoted
import SuiteDraft.Tree.Place
import SuiteDraft.Proofs.Tree.Preorder
import SuiteDraft.Proofs.Tree.Walk
import SuiteDraft.Proofs.Analysis.Scope
import SuiteDraft.Proofs.Analysis.Facts
import SuiteDraft.Proofs.Analysis.Elements
import SuiteDraft.Proofs.Analysis.Calls
import SuiteDraft.Proofs.Analysis.Network
import SuiteDraft.Proofs.Analysis.Handlers
import SuiteDraft.Proofs.Analysis.Statements
import SuiteDraft.Proofs.Analysis.Definitions
import SuiteDraft.Proofs.Analysis.Isolation
import SuiteDraft.Proofs.Lockstep
import SuiteDraft.Proofs.Analysis.Readings
import SuiteDraft.Proofs.Analysis.Twins
import SuiteDraft.Proofs.Analysis.Simulation
import SuiteDraft.Proofs.Analysis.Transparency
import SuiteDraft.Proofs.Analysis.Exports
import SuiteDraft.Proofs.Analysis.Failure
import SuiteDraft.Proofs.Batch
import SuiteDraft.Proofs.Files.Sound
import SuiteDraft.Proofs.Suite.Placement
import SuiteDraft.Proofs.Discovery.Files
import SuiteDraft.Proofs.CommandLine.Preservation
import SuiteDraft.Proofs.CommandLine.Overwriting
import SuiteDraft.Proofs.Discovery.Outside
import SuiteDraft.Proofs.Discovery.Unseen
import SuiteDraft.Proofs.CommandLine.Repetition
import SuiteDraft.Proofs.Discovery.Exact
import SuiteDraft.Proofs.Ignore.Confinement
import SuiteDraft.Proofs.Discovery.Nesting
import SuiteDraft.Proofs.Files.Ways
import SuiteDraft.Proofs.Suite.Spot
import SuiteDraft.Proofs.CommandLine.Isolation
import SuiteDraft.Proofs.Server.Preview
import SuiteDraft.Proofs.Analysis.Tally
import SuiteDraft.Proofs.Ignore.Relocation
import SuiteDraft.Proofs.Discovery.Blanks
import SuiteDraft.Proofs.Discovery.Refusal
import SuiteDraft.Proofs.Analysis.States
import SuiteDraft.Proofs.Analysis.Attributes
import SuiteDraft.Proofs.Analysis.AttributeValues
import SuiteDraft.Proofs.Grammar.Strings
import SuiteDraft.Proofs.Suite.Verbatim
import SuiteDraft.Proofs.Suite.Lines
import SuiteDraft.Proofs.Suite.Cases
import SuiteDraft.Proofs.Suite.Block
import SuiteDraft.Proofs.Json.Quotes
import SuiteDraft.Proofs.Suite.Quotes
import SuiteDraft.Proofs.Tree.Faults
import SuiteDraft.Proofs.Analysis.Outermost
import SuiteDraft.Proofs.Analysis.Dependencies
import SuiteDraft.Proofs.Suite.Inputs
import SuiteDraft.Proofs.Analysis.Parameters
import SuiteDraft.Proofs.Analysis.Texts
import SuiteDraft.Proofs.Component.Reading
import SuiteDraft.Proofs.Suite.Parses

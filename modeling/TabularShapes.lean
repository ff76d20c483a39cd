import TabularShapes.CommandLine.Run
import TabularShapes.Main
import TabularShapes.Proofs.Compile.Naming
import TabularShapes.Proofs.Name.Expansion
import TabularShapes.Proofs.Schema.Soundness
import TabularShapes.Proofs.Compile.Statement
import TabularShapes.Proofs.Compile.Result
import TabularShapes.Proofs.Compile.Validity
import TabularShapes.Proofs.Compile.Identity
import TabularShapes.Proofs.Compile.Dropping
import TabularShapes.Proofs.Compile.Spelling
import TabularShapes.Proofs.Compile.Leniency
import TabularShapes.Proofs.Profile.Grouping
import TabularShapes.Proofs.Compile.Order
import TabularShapes.Proofs.Session.Conversion
import TabularShapes.Proofs.Writing.Compact
import TabularShapes.Proofs.Profile.Writing
import TabularShapes.Proofs.Writing.Denotation
import TabularShapes.Proofs.Compile.Closure
import TabularShapes.Proofs.Compile.Expansion
import TabularShapes.Proofs.Compile.Absolute
import TabularShapes.Proofs.Session.Cleaning
import TabularShapes.Proofs.Writing.Prefixes
import TabularShapes.Proofs.CommandLine.Run
import TabularShapes.Proofs.Profile.Belonging
import TabularShapes.Proofs.Compile.Positions
import TabularShapes.Proofs.Compile.Offences
import TabularShapes.Proofs.Table.Boundary
import TabularShapes.Proofs.Profile.Concatenation
import TabularShapes.Proofs.Schema.Index
import TabularShapes.Proofs.CommandLine.Encoding
import TabularShapes.Proofs.Profile.Lines
import TabularShapes.Proofs.Profile.Arrangement
import TabularShapes.Proofs.Schema.Insertion
import TabularShapes.Proofs.Writing.Colours
import TabularShapes.Proofs.Writing.Labels
import TabularShapes.Proofs.Writing.Comments
import TabularShapes.Proofs.Compile.Extension
import TabularShapes.Proofs.Name.Declaring
import TabularShapes.Proofs.Name.Grammar
import TabularShapes.Proofs.Name.Reading
import TabularShapes.Proofs.CommandLine.Events
import TabularShapes.Proofs.Writing.Room

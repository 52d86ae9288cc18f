import DocTree.Command.FileTree
import DocTree.Main
import DocTree.Proofs.Command.Looking
import DocTree.Proofs.Command.Outputs
import DocTree.Proofs.Entry.Mirror
import DocTree.Proofs.Entry.Pruning
import DocTree.Proofs.Path.Relative
import DocTree.Proofs.Reflection.ArrayForm
import DocTree.Proofs.Reflection.Extension
import DocTree.Proofs.Reflection.Reordering
import DocTree.Proofs.Reflection.RoundTrip
import DocTree.Proofs.TypeText.Reading
import DocTree.Proofs.Path.NormalForm
import DocTree.Proofs.Entry.SignatureText
import DocTree.Proofs.Entry.NoProject
import DocTree.Proofs.Command.Documenting
import DocTree.Proofs.Command.Skipping
import DocTree.Proofs.Command.Projects
import DocTree.Proofs.Command.Directories
import DocTree.Proofs.Command.Repeating
import DocTree.Proofs.Command.Effects
import DocTree.Proofs.Command.SingleInput
import DocTree.Proofs.Command.AnyOrder
import DocTree.Proofs.Entry.Lossless
import DocTree.Proofs.Entry.Independence
import DocTree.Proofs.Json.Extent
import DocTree.Proofs.Reflection.Levels
import DocTree.Proofs.Reflection.Cutting
import DocTree.Proofs.Reflection.Nested
import DocTree.Proofs.Reflection.Depth
import DocTree.Proofs.Reflection.Unfolding
import DocTree.Proofs.Entry.Unfolding
import DocTree.Proofs.TypeText.Quoting
import DocTree.Proofs.TypeText.Brackets
import DocTree.Proofs.TypeText.Operands
import DocTree.Proofs.TypeText.Swapping
import DocTree.Proofs.TypeText.OptionalMembers
import DocTree.Proofs.Comment.TagEdits
import DocTree.Proofs.Comment.TagLines
import DocTree.Proofs.Command.OwnOutput
import DocTree.Proofs.Json.Fields
import DocTree.Proofs.Json.Positions
import DocTree.Proofs.Reflection.Standing
import DocTree.Proofs.Reflection.Queries
import DocTree.Proofs.Command.Following
